import DocTemplate.Yaml.Node

/-!
# YAML nodes from tokens

The tokens of a document are taken one behind the other. What has been opened and not been closed
lies on a stack: at each time the top of the stack says what may come next. A complete node goes to
what lies under it. A place for a node may stay empty in front of some tokens; the node there is an
empty scalar, and the token is taken again by what lies under the place.
-/

namespace DocTemplate.Yaml

/-- A place where a node is due. -/
inductive Slot where
  /-- A document whose start is not marked. -/
  | bareRoot
  /-- A document behind its mark. -/
  | markedRoot
  /-- An item behind a dash, in a block that is indented. -/
  | blockItem
  /-- An item behind a dash, in a sequence that is not indented. -/
  | flushItem
  /-- A key or a value of a block. -/
  | blockPart
  /-- An item between brackets, or a key between braces that has no mark. -/
  | flowPart
  /-- A key behind its mark between braces. -/
  | flowKey
  /-- A value between braces. -/
  | flowValue
  /-- The key of a single entry between brackets. -/
  | pairKey
  /-- The value of a single entry between brackets. -/
  | pairValue
  deriving DecidableEq, Repr

namespace Slot

/-- Whether a node that is made by indentation may stand here. -/
def allowsBlock : Slot → Bool
  | bareRoot | markedRoot | blockItem | flushItem | blockPart => true
  | flowPart | flowKey | flowValue | pairKey | pairValue => false

/-- Whether the place stays empty in front of a token. -/
def isEmptyBefore : Slot → YamlToken → Bool
  | bareRoot, _ | flowPart, _ => false
  | markedRoot, t => match t with
    | .directive _ | .documentStart | .documentEnd | .streamEnd => true
    | _ => false
  | blockItem, t => t == .blockEntry || t == .blockEnd
  | flushItem, t => t == .blockEntry || t == .key || t == .value || t == .blockEnd
  | blockPart, t => t == .key || t == .value || t == .blockEnd
  | flowKey, t => t == .value || t == .flowEntry || t == .flowMappingEnd
  | flowValue, t => t == .flowEntry || t == .flowMappingEnd
  | pairKey, t => t == .value || t == .flowEntry || t == .flowSequenceEnd
  | pairValue, t => t == .flowEntry || t == .flowSequenceEnd

end Slot

/-- What is due in a mapping. -/
inductive EntryPhase where
  /-- A key. -/
  | key
  /-- The value of a key. -/
  | value (key : YamlNode)

/-- What is due between braces. -/
inductive FlowEntryPhase where
  /-- An entry or the end. -/
  | entry
  /-- A key without a mark, which has no value. -/
  | bareKey
  /-- A key behind its mark. -/
  | key
  /-- The value of a key. -/
  | value (key : YamlNode)
  /-- A comma or the end. -/
  | comma

/-- What is due in a single entry between brackets. -/
inductive PairPhase where
  /-- The key. -/
  | key
  /-- The value of the key. -/
  | value (key : YamlNode)
  /-- Nothing. -/
  | done (key value : YamlNode)

/-- What has been opened and not been closed. Items and entries are kept with the latest first. -/
inductive Frame where
  /-- A place for a node, with what has been read in front of the content. -/
  | slot (slot : Slot) (props : Properties)
  /-- A sequence in a block that is indented. -/
  | blockSequence (props : Properties) (items : List YamlNode)
  /-- A sequence of dashes that are not indented. -/
  | flushSequence (props : Properties) (items : List YamlNode)
  /-- A mapping in a block. -/
  | blockMapping (props : Properties) (entries : List (YamlNode × YamlNode)) (phase : EntryPhase)
  /-- A sequence between brackets; an item or the end is due, or else a comma or the end. -/
  | flowSequence (props : Properties) (items : List YamlNode) (itemDue : Bool)
  /-- A mapping between braces. -/
  | flowMapping (props : Properties) (entries : List (YamlNode × YamlNode))
    (phase : FlowEntryPhase)
  /-- A single entry between brackets. -/
  | pair (phase : PairPhase)
  /-- The document, with its root. -/
  | document (root : Option YamlNode)

namespace Frame

/-- Takes a node that is complete. -/
def receive (node : YamlNode) : Frame → Frame
  | blockSequence p items => blockSequence p (node :: items)
  | flushSequence p items => flushSequence p (node :: items)
  | blockMapping p es .key => blockMapping p es (.value node)
  | blockMapping p es (.value k) => blockMapping p ((k, node) :: es) .key
  | flowSequence p items _ => flowSequence p (node :: items) false
  | flowMapping p es .bareKey => flowMapping p ((node, .omitted {}) :: es) .comma
  | flowMapping p es .key => flowMapping p es (.value node)
  | flowMapping p es (.value k) => flowMapping p ((k, node) :: es) .comma
  | pair .key => pair (.value node)
  | pair (.value k) => pair (.done k node)
  | document _ => document (some node)
  | other => other

/-- Gives a complete node to what lies on top. -/
def deliver (node : YamlNode) : List Frame → List Frame
  | [] => []
  | f :: rest => f.receive node :: rest

/-- The node that a token starts at a place with nothing left out: what lies on top of the stack
`under` then. -/
def startNode (handles : Handles) (s : Slot) (props : Properties) (under : List Frame) :
    YamlToken → Option (List Frame)
  | .reference name => if props = {} then some (deliver (.reference name) under) else none
  | .anchor name =>
    if props.anchor = none then some (slot s { props with anchor := some name } :: under) else none
  | .tag name =>
    if props.tag = none then
      (name.complete? handles).map fun t => slot s { props with tag := some t } :: under
    else none
  | .scalar text style =>
    let props := if props.tag = some ['!'] then { props with tag := none } else props
    some (deliver (.scalar props text style) under)
  | .flowSequenceStart => some (flowSequence props [] true :: under)
  | .flowMappingStart => some (flowMapping props [] .entry :: under)
  | .blockSequenceStart =>
    if s.allowsBlock then some (blockSequence props [] :: under) else none
  | .blockMappingStart =>
    if s.allowsBlock then some (blockMapping props [] .key :: under) else none
  | .blockEntry =>
    if s = .blockPart then some (slot .flushItem {} :: flushSequence props [] :: under) else none
  | _ => none

/-- A token where a key of a block is due. -/
def blockKey (props : Properties) (entries : List (YamlNode × YamlNode)) (rest : List Frame) :
    YamlToken → Option (List Frame)
  | .key => some (slot .blockPart {} :: blockMapping props entries .key :: rest)
  | .blockEnd => some (deliver (.mapping props entries.reverse) rest)
  | _ => none

/-- A token behind an entry between braces. -/
def flowComma (props : Properties) (entries : List (YamlNode × YamlNode)) (rest : List Frame) :
    YamlToken → Option (List Frame)
  | .flowEntry => some (flowMapping props entries .entry :: rest)
  | .flowMappingEnd => some (deliver (.mapping props entries.reverse) rest)
  | _ => none

/-- Takes a token, after a node that has just been completed. -/
def feed (handles : Handles) (incoming : Option YamlNode) :
    List Frame → YamlToken → Option (List Frame)
  | [], _ => none
  | f :: rest, token =>
    let top := match incoming with
      | some node => f.receive node
      | none => f
    match top with
    | slot s props =>
      if props = {} then
        if s.isEmptyBefore token then
          if s = .pairKey then some (deliver (.omitted {}) rest)
          else feed handles (some (.omitted {})) rest token
        else startNode handles s props rest token
      else match startNode handles s props rest token with
        | some stack => some stack
        | none => feed handles (some (.omitted props)) rest token
    | blockSequence p items =>
      match token with
      | .blockEntry => some (slot .blockItem {} :: blockSequence p items :: rest)
      | .blockEnd => some (deliver (.sequence p items.reverse) rest)
      | _ => none
    | flushSequence p items =>
      match token with
      | .blockEntry => some (slot .flushItem {} :: flushSequence p items :: rest)
      | _ => feed handles (some (.sequence p items.reverse)) rest token
    | blockMapping p es .key => blockKey p es rest token
    | blockMapping p es (.value k) =>
      match token with
      | .value => some (slot .blockPart {} :: blockMapping p es (.value k) :: rest)
      | _ => blockKey p ((k, .omitted {}) :: es) rest token
    | flowSequence p items itemDue =>
      match token with
      | .flowSequenceEnd => some (deliver (.sequence p items.reverse) rest)
      | .flowEntry => if itemDue then none else some (flowSequence p items true :: rest)
      | .key =>
        if itemDue then
          some (slot .pairKey {} :: pair .key :: flowSequence p items true :: rest)
        else none
      | _ =>
        if itemDue then startNode handles .flowPart {} (flowSequence p items true :: rest) token
        else none
    | flowMapping p es .entry =>
      match token with
      | .flowMappingEnd => some (deliver (.mapping p es.reverse) rest)
      | .key => some (slot .flowKey {} :: flowMapping p es .key :: rest)
      | _ => startNode handles .flowPart {} (flowMapping p es .bareKey :: rest) token
    | flowMapping p es (.value k) =>
      match token with
      | .value => some (slot .flowValue {} :: flowMapping p es (.value k) :: rest)
      | _ => flowComma p ((k, .omitted {}) :: es) rest token
    | flowMapping p es .comma => flowComma p es rest token
    | flowMapping _ _ .bareKey | flowMapping _ _ .key => none
    | pair .key => none
    | pair (.value k) =>
      match token with
      | .value => some (slot .pairValue {} :: pair (.value k) :: rest)
      | _ => feed handles (some (.mapping {} [(k, .omitted {})])) rest token
    | pair (.done k v) => feed handles (some (.mapping {} [(k, v)])) rest token
    | document (some root) =>
      match token with
      | .documentEnd | .streamEnd => some (document (some root) :: rest)
      | _ => none
    | document none => none

end Frame

/-- Takes the directives in front of a document: the handles and the tokens behind. A document has
one version, which is 1.1 or 1.2, and gives one meaning to a handle. -/
def takeDirectives (versioned : Bool) (handles : Handles) :
    List YamlToken → Option (Handles × List YamlToken)
  | .directive (.version major minor) :: rest =>
    if !versioned && major == 1 && (minor == 1 || minor == 2) then
      takeDirectives true handles rest
    else none
  | .directive (.handle h meaning) :: rest =>
    if (handles.map Prod.fst).contains h then none
    else takeDirectives versioned ((h, meaning) :: handles) rest
  | rest => some (handles, rest)

/-- Takes the tokens of a document one behind the other. -/
def rootOfTokens? (handles : Handles) (s : Slot) (tokens : List YamlToken) : Option YamlNode :=
  match tokens.foldlM (Frame.feed handles none) [.slot s {}, .document none] with
  | some [.document root] => root
  | _ => none

/-- The document that tokens make: nothing for an empty text. Several documents are refused. -/
def YamlNode.ofTokens? (tokens : List YamlToken) : Option (Option YamlNode) :=
  match tokens with
  | [.streamEnd] => some none
  | .directive _ :: _ | .documentStart :: _ =>
    match takeDirectives false [] tokens with
    | some (handles, .documentStart :: rest) =>
      (rootOfTokens? (handles ++ standardHandles) .markedRoot rest).map some
    | _ => none
  | _ => (rootOfTokens? standardHandles .bareRoot tokens).map some

end DocTemplate.Yaml
