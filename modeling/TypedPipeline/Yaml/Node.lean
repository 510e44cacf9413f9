import TypedPipeline.Yaml.Token.Stream

/-!
# Nodes of a YAML document

A document is a tree of scalars, sequences and mappings, in which a node may carry an anchor and an
alias may stand for an anchored node. An anchor is a number: the count of names anchored before it.
A name that is anchored again therefore gets the count of all names, which a later name may get too;
of several nodes with one number the last one in the text is meant.

## Implementation notes

The grammar is read by functions that call each other, one for each kind of node and of collection.
Each of them takes fuel, and a call uses some of it. Along a chain of calls a token is taken at
least at every fourth one, which is why `Document.content?` gives four times as much fuel as there
are tokens.

The anchors that are known at a place are those of the text before it. An alias gets its number when
it is read, and its node is looked up only when the document is decoded. So an alias may stand for a
node of which it is a part.

## Main definitions

* `Yaml.Node` — the tree
* `Yaml.Document` — the tree with the nodes that aliases may stand for
* `Yaml.Document.ofTokens?` — the grammar
* `Yaml.Document.read?` — the document of a text
-/

namespace TypedPipeline.Yaml

/-- A node. Of the tags only those of scalars have a meaning. -/
inductive Node where
  | scalar (anchor : Option Nat) (tag : Option String) (form : ScalarForm) (text : String)
  | sequence (anchor : Option Nat) (items : List Node)
  | mapping (anchor : Option Nat) (entries : List (Node × Node))
  | alias (anchor : Nat)

/-- The node that is not written at all. -/
def Node.blank : Node := .scalar none none .plain ""

/-! ### Directives and tags

Directives come before the first node, and the handles that they define are known in all of it. -/

/-- The handles that need no directive. -/
def standardHandles : List (String × String) := [("!", "!"), ("!!", "tag:yaml.org,2002:")]

/-- Reads the directives before a document: the handles they define. A second version, a version
other than 1.1 and 1.2 and a handle defined twice are errors. -/
def readDirectives? : (versionSeen : Bool) → List (String × String) → List Token →
    Option (List (String × String) × List Token)
  | versionSeen, handles, .versionDirective major minor :: rest =>
    if versionSeen || major != 1 || (minor != 1 && minor != 2) then none
    else readDirectives? true handles rest
  | versionSeen, handles, .tagDirective handle lead :: rest =>
    if (handles.lookup handle).isSome then none
    else readDirectives? versionSeen ((handle, lead) :: handles) rest
  | _, handles, rest => some (handles, rest)

/-- The full tag for a handle and a suffix. -/
def fullTag? (handles : List (String × String)) (handle suffix : String) : Option String :=
  if handle.isEmpty then some suffix
  else ((handles ++ standardHandles).lookup handle).map (· ++ suffix)

/-! ### The grammar of nodes

A blank node stands wherever a node could be and is not. Which tokens show that it is not there is a
matter of the surroundings, so it is passed along as a list of ends. -/

/-- What is left to read, and the numbers of the names anchored so far. -/
structure Reading where
  tokens : List Token
  anchors : List (String × Nat)

namespace Reading

/-- Goes on at `tokens`. -/
def goto (r : Reading) (tokens : List Token) : Reading := { r with tokens }

/-- Gives a name its number: the count of different names anchored so far. -/
def anchor (r : Reading) (name : String) : Nat × Reading :=
  let n := r.anchors.length
  (n, { r with anchors := (name, n) :: r.anchors.filter (·.1 != name) })

/-- Gives a name its number, if there is a name. -/
def anchor? (r : Reading) : Option String → Option Nat × Reading
  | none => (none, r)
  | some name =>
    let (n, r) := r.anchor name
    (some n, r)

/-- The properties in front of a node: an anchor and a tag in either order. -/
def properties (r : Reading) : Option String × Option (String × String) × Reading :=
  match r.tokens with
  | .anchor a :: .tag h s :: rest => (some a, some (h, s), r.goto rest)
  | .anchor a :: rest => (some a, none, r.goto rest)
  | .tag h s :: .anchor a :: rest => (some a, some (h, s), r.goto rest)
  | .tag h s :: rest => (none, some (h, s), r.goto rest)
  | _ => (none, none, r)

/-- Takes the comma before every entry of a flow collection but the first. -/
def separated? (r : Reading) (first : Bool) : Option Reading :=
  if first then some r
  else
    match r.tokens with
    | .flowEntry :: rest => some (r.goto rest)
    | _ => none

mutual

/-- Reads a node. Inside a flow collection (`block` is false) no block collection may begin. A
sequence that is the value of a mapping need not be indented (`flush`). -/
def node? (handles : List (String × String)) :
    Nat → (block flush : Bool) → Reading → Option (Node × Reading)
  | 0, _, _, _ => none
  | fuel + 1, block, flush, r =>
    match r.tokens with
    | .alias name :: rest => do
      let n ← r.anchors.lookup name
      some (.alias n, r.goto rest)
    | _ => do
      let (name, shorthand, r) := r.properties
      let tag ←
        match shorthand with
        | none => some none
        | some (h, s) => (fullTag? handles h s).map some
      let (anchor, r) := r.anchor? name
      match r.tokens with
      | .scalar text form :: rest =>
        let tag := if tag == some "!" then none else tag
        some (.scalar anchor tag form text, r.goto rest)
      | .flowSequenceStart :: rest =>
        let (items, r) ← flowItems? handles fuel true (r.goto rest)
        some (.sequence anchor items, r)
      | .flowMappingStart :: rest =>
        let (entries, r) ← flowEntries? handles fuel true (r.goto rest)
        some (.mapping anchor entries, r)
      | t :: rest =>
        if flush && t == .blockEntry then
          let (items, r) ← flushItems? handles fuel r
          some (.sequence anchor items, r)
        else if block && t == .blockSequenceStart then
          let (items, r) ← blockItems? handles fuel (r.goto rest)
          some (.sequence anchor items, r)
        else if block && t == .blockMappingStart then
          let (entries, r) ← blockEntries? handles fuel (r.goto rest)
          some (.mapping anchor entries, r)
        else if anchor.isSome || tag.isSome then some (.scalar anchor tag .plain "", r)
        else none
      | [] => none

/-- Reads a node unless one of `ends` comes next, where the blank node stands. -/
def nodeUnless? (handles : List (String × String)) :
    Nat → (block flush : Bool) → (ends : List Token) → Reading → Option (Node × Reading)
  | 0, _, _, _, _ => none
  | fuel + 1, block, flush, ends, r =>
    if ends.any (fun t => r.tokens.head? == some t) then some (.blank, r)
    else node? handles fuel block flush r

/-- The items of a block sequence, to its end. -/
def blockItems? (handles : List (String × String)) :
    Nat → Reading → Option (List Node × Reading)
  | 0, _ => none
  | fuel + 1, r =>
    match r.tokens with
    | .blockEntry :: rest => do
      let (item, r) ← nodeUnless? handles fuel true false [.blockEntry, .blockEnd] (r.goto rest)
      let (items, r) ← blockItems? handles fuel r
      some (item :: items, r)
    | .blockEnd :: rest => some ([], r.goto rest)
    | _ => none

/-- The items of a sequence that is not indented; it ends where no item follows. -/
def flushItems? (handles : List (String × String)) :
    Nat → Reading → Option (List Node × Reading)
  | 0, _ => none
  | fuel + 1, r =>
    match r.tokens with
    | .blockEntry :: rest => do
      let (item, r) ←
        nodeUnless? handles fuel true false [.blockEntry, .key, .value, .blockEnd] (r.goto rest)
      let (items, r) ← flushItems? handles fuel r
      some (item :: items, r)
    | _ => some ([], r)

/-- The entries of a block mapping, to its end. -/
def blockEntries? (handles : List (String × String)) :
    Nat → Reading → Option (List (Node × Node) × Reading)
  | 0, _ => none
  | fuel + 1, r =>
    match r.tokens with
    | .key :: rest => do
      let (key, r) ← nodeUnless? handles fuel true true [.key, .value, .blockEnd] (r.goto rest)
      let (value, r) ←
        match r.tokens with
        | .value :: rest =>
          nodeUnless? handles fuel true true [.key, .value, .blockEnd] (r.goto rest)
        | _ => some (.blank, r)
      let (entries, r) ← blockEntries? handles fuel r
      some ((key, value) :: entries, r)
    | .blockEnd :: rest => some ([], r.goto rest)
    | _ => none

/-- The items of a flow sequence, to its end. An item with a key is a mapping of one entry. -/
def flowItems? (handles : List (String × String)) :
    Nat → (first : Bool) → Reading → Option (List Node × Reading)
  | 0, _, _ => none
  | fuel + 1, first, r => do
    if let .flowSequenceEnd :: rest := r.tokens then
      return ([], r.goto rest)
    let r ← r.separated? first
    match r.tokens with
    | .flowSequenceEnd :: rest => some ([], r.goto rest)
    | .key :: rest =>
      let r := r.goto rest
      let ends : List Token := [.value, .flowEntry, .flowSequenceEnd]
      let (key, r) ←
        -- Where the key is blank, the token that shows it is taken for the key.
        if ends.any (fun t => r.tokens.head? == some t) then
          some (.blank, r.goto (r.tokens.drop 1))
        else node? handles fuel false false r
      let (value, r) ←
        match r.tokens with
        | .value :: rest =>
          nodeUnless? handles fuel false false [.flowEntry, .flowSequenceEnd] (r.goto rest)
        | _ => some (.blank, r)
      let (items, r) ← flowItems? handles fuel false r
      some (.mapping none [(key, value)] :: items, r)
    | _ =>
      let (item, r) ← node? handles fuel false false r
      let (items, r) ← flowItems? handles fuel false r
      some (item :: items, r)

/-- The entries of a flow mapping, to its end. -/
def flowEntries? (handles : List (String × String)) :
    Nat → (first : Bool) → Reading → Option (List (Node × Node) × Reading)
  | 0, _, _ => none
  | fuel + 1, first, r => do
    if let .flowMappingEnd :: rest := r.tokens then
      return ([], r.goto rest)
    let r ← r.separated? first
    match r.tokens with
    | .flowMappingEnd :: rest => some ([], r.goto rest)
    | .key :: rest =>
      let (key, r) ←
        nodeUnless? handles fuel false false [.value, .flowEntry, .flowMappingEnd] (r.goto rest)
      let (value, r) ←
        match r.tokens with
        | .value :: rest =>
          nodeUnless? handles fuel false false [.flowEntry, .flowMappingEnd] (r.goto rest)
        | _ => some (.blank, r)
      let (entries, r) ← flowEntries? handles fuel false r
      some ((key, value) :: entries, r)
    | _ =>
      let (key, r) ← node? handles fuel false false r
      let (entries, r) ← flowEntries? handles fuel false r
      some ((key, .blank) :: entries, r)

end

end Reading

/-! ### Documents

A text may have a document or none. A second one is refused, since no caller would know what to do
with it. -/

mutual

/-- All anchored nodes of a node, in the order of the text. -/
def Node.anchored : Node → List (Nat × Node)
  | .scalar (some n) tag form text => [(n, .scalar (some n) tag form text)]
  | .scalar none _ _ _ => []
  | .sequence (some n) items => (n, .sequence (some n) items) :: anchoredItems items
  | .sequence none items => anchoredItems items
  | .mapping (some n) entries => (n, .mapping (some n) entries) :: anchoredEntries entries
  | .mapping none entries => anchoredEntries entries
  | .alias _ => []

/-- All anchored nodes of the items of a sequence. -/
def anchoredItems : List Node → List (Nat × Node)
  | [] => []
  | item :: items => item.anchored ++ anchoredItems items

/-- All anchored nodes of the entries of a mapping. -/
def anchoredEntries : List (Node × Node) → List (Nat × Node)
  | [] => []
  | (key, value) :: entries => key.anchored ++ value.anchored ++ anchoredEntries entries

end

mutual

/-- How many events a reader of the node sees: one for a scalar or an alias, and two for a
collection besides those of its parts. -/
def Node.eventCount : Node → Nat
  | .scalar .. => 1
  | .sequence _ items => 2 + eventCountItems items
  | .mapping _ entries => 2 + eventCountEntries entries
  | .alias _ => 1

/-- The events of the items of a sequence. -/
def eventCountItems : List Node → Nat
  | [] => 0
  | item :: items => item.eventCount + eventCountItems items

/-- The events of the entries of a mapping. -/
def eventCountEntries : List (Node × Node) → Nat
  | [] => 0
  | (key, value) :: entries => key.eventCount + value.eventCount + eventCountEntries entries

end

/-- A document: its node, absent for an empty text, and the anchored nodes, the last one first. -/
structure Document where
  root : Option Node
  anchored : List (Nat × Node)

namespace Document

/-- The document of a node. -/
def ofRoot (root : Node) : Document := ⟨some root, root.anchored.reverse⟩

/-- How many aliases may be followed while the document is decoded. -/
def aliasLimit (d : Document) : Nat :=
  100 * (match d.root with | none => 1 | some n => n.eventCount)

/-- Reads the node of a document, of which the directives are read. -/
def content? (handles : List (String × String)) (explicit : Bool) (tokens : List Token) :
    Option (Node × List Token) := do
  let ends : List Token := [.documentStart, .documentEnd, .streamEnd]
  let isDirective : Option Token → Bool
    | some (.versionDirective ..) => true
    | some (.tagDirective ..) => true
    | _ => false
  if explicit && (isDirective tokens.head? || ends.any (fun t => tokens.head? == some t)) then
    some (.blank, tokens)
  else
    let (node, r) ← Reading.node? handles (4 * (tokens.length + 1)) true false ⟨tokens, []⟩
    some (node, r.tokens)

/-- The document of a token sequence. There may be one document at most. -/
def ofTokens? (tokens : List Token) : Option Document :=
  match tokens with
  | [.streamEnd] => some ⟨none, []⟩
  | _ => do
    let (handles, rest) ← readDirectives? false [] tokens
    let hasDirectives := rest.length < tokens.length
    let (explicit, rest) ←
      match rest with
      | .documentStart :: rest => some (true, rest)
      | _ => if hasDirectives then none else some (false, rest)
    let (root, rest) ← content? handles explicit rest
    if rest.dropWhile (· == .documentEnd) == [.streamEnd] then some (ofRoot root) else none

/-- The document of a text. -/
def read? (text : String) : Option Document := do
  let tokens ← scan? text
  ofTokens? tokens.toList

end Document

end TypedPipeline.Yaml
