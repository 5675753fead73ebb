import DocTemplate.Proofs.Node.Symbols

/-!
# The names in a tree

A tree names variables and filters. The head of a path is free if no loop around the path binds it;
what a loop runs over lies outside of its own binding. A filter is named by the interpolations of
the tree, however deep they stand.
-/

namespace DocTemplate

mutual

/-- The heads of the paths in a node that no loop around them binds. -/
def Node.freeHeads : Node → List Text
  | .text _ => []
  | .interpolation i => [i.pipe.path.head]
  | .loop head _ body => head.iterable.head :: (Node.freeHeadsAll body).filter (· ≠ head.name)
  | .conditional condition consequent alternative =>
    condition.head :: (Node.freeHeadsAll consequent ++ Node.freeHeadsAll alternative)

/-- The heads of the paths in nodes that no loop around them binds. -/
def Node.freeHeadsAll : List Node → List Text
  | [] => []
  | node :: rest => node.freeHeads ++ Node.freeHeadsAll rest

end

/-- The filters that a piece of a reading names. -/
def Symbol.filterNames : Symbol → List Text
  | .interpolation i => i.pipe.filters
  | _ => []

/-- The filters that a node names. -/
def Node.filterNames (node : Node) : List Text := node.symbols.flatMap Symbol.filterNames

/-- The filters that nodes name. -/
def Node.filterNamesAll (nodes : List Node) : List Text :=
  (Node.symbolsAll nodes).flatMap Symbol.filterNames

namespace Node

@[simp] theorem filterNames_interpolation (i : Interpolation) :
    filterNames (.interpolation i) = i.pipe.filters := by
  simp [filterNames, symbols, Symbol.filterNames]

@[simp] theorem filterNames_loop (head : LoopHead) (layout : LoopLayout) (body : List Node) :
    filterNames (.loop head layout body) = filterNamesAll body := by
  simp [filterNames, filterNamesAll, symbols, Symbol.filterNames]

@[simp] theorem filterNames_conditional (condition : Path) (consequent alternative : List Node) :
    filterNames (.conditional condition consequent alternative) =
      filterNamesAll consequent ++ filterNamesAll alternative := by
  simp [filterNames, filterNamesAll, symbols, Symbol.filterNames]

@[simp] theorem filterNamesAll_cons (node : Node) (rest : List Node) :
    filterNamesAll (node :: rest) = node.filterNames ++ filterNamesAll rest := by
  simp [filterNames, filterNamesAll, symbolsAll]

/-- An interpolation that a tree is read with names filters of the tree. -/
theorem mem_filterNamesAll {nodes : List Node} {i : Interpolation} {name : Text}
    (hi : .interpolation i ∈ symbolsAll nodes) (hname : name ∈ i.pipe.filters) :
    name ∈ filterNamesAll nodes :=
  List.mem_flatMap.mpr ⟨.interpolation i, hi, hname⟩

end Node

end DocTemplate
