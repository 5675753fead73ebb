import DocTemplate.Node.Build
import DocTemplate.Node.Render

/-!
# The template engine

An engine has settings and filters. It parses a source into a template, which may be rendered with
any variables, or does both at once.
-/

namespace DocTemplate

/-- A parsed document. -/
structure Template where
  /-- The name of the document in messages. -/
  origin : Text
  /-- The tree of the document. -/
  nodes : List Node

/-- Renders a template. -/
def Template.render (t : Template) (filters : Filters) (vars : Variables) :
    Except Failure Text :=
  Node.renderAll filters ⟨[], vars⟩ t.nodes

/-- Settings with filters. -/
structure Engine where
  /-- Which tags are recognised. -/
  settings : Settings := {}
  /-- The filters that interpolations may use. -/
  filters : Filters := .standard

/-- The failure of an opener that has no closer. -/
def Unterminated.failure (u : Unterminated) : Failure :=
  ⟨u.location, .unterminated u.delimiter u.excerpt⟩

namespace Engine

/-- The tree of a source. -/
def parseNodes (settings : Settings) (source : Text) : Except Failure (List Node) :=
  match scan settings source with
  | .ok tokens => Node.ofTokens tokens
  | .error u => .error u.failure

/-- Parses a source. -/
def parse (e : Engine) (source origin : Text) : Except Failure Template :=
  (parseNodes e.settings source).map fun nodes => ⟨origin, nodes⟩

/-- Parses and renders a source. -/
def render (e : Engine) (source : Text) (vars : Variables) : Except Failure Text :=
  (parseNodes e.settings source).bind fun nodes =>
    Node.renderAll e.filters ⟨[], vars⟩ nodes

end Engine

end DocTemplate
