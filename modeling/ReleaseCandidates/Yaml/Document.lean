import ReleaseCandidates.Yaml.Node
import ReleaseCandidates.Yaml.Token.Scan

set_option autoImplicit false

/-! # Documents

`Document.read` takes the first document of a text and builds its tree from the tokens. A name given
to a node by an anchor stands, at each alias after it, for the latest node of that name. -/

namespace ReleaseCandidates.Yaml

/-- The first document of a text. -/
structure Document where
  root : Node
  /-- Whether the text holds nothing after the document, and broke no rule. -/
  complete : Bool
  /-- The number of marks that the document is made of: one for each scalar and alias, two for each
  collection. -/
  marks : Nat
  /-- The number of aliases that are passed when every alias is followed. -/
  jumps : Nat

/-- Where the building of a tree stands. -/
structure Builder where
  tokens : List Token
  /-- What the tag handles stand for. -/
  handles : List (String × String)
  /-- The number of the node each anchor names, the latest first. -/
  anchors : List (String × Nat)
  /-- The finished nodes with an anchor, and the aliases inside each. -/
  nodes : List (Nat × Node × Nat)
  /-- The number of anchors so far. -/
  anchorCount : Nat
  marks : Nat
  jumps : Nat
  /-- Whether the tokens broke a rule of the grammar or came to an end. -/
  broken : Bool

namespace Builder

/-- The handles that need no directive. -/
def defaultHandles : List (String × String) :=
  [("!", "!"), ("!!", "tag:yaml.org,2002:")]

/-- The start of a document. -/
def start (tokens : List Token) : Builder where
  tokens := tokens
  handles := []
  anchors := []
  nodes := []
  anchorCount := 0
  marks := 0
  jumps := 0
  broken := false

/-- The next token. -/
def peek (b : Builder) : Option Token := b.tokens.head?

/-- Passes the next token. -/
def pass (b : Builder) : Builder := { b with tokens := b.tokens.drop 1 }

/-- Counts marks of the document. -/
def mark (b : Builder) (n : Nat) : Builder := { b with marks := b.marks + n }

/-- Breaks off. -/
def fail (b : Builder) : Builder := { b with broken := true }

/-- What stands for a node that could not be read. -/
def cut (b : Builder) : Node × Builder := (.cut, b.fail)

/-! ## What stands before a node -/

/-- The anchor and the tag of a node. -/
structure Properties where
  anchor : Option String
  tag : Option (String × String)

/-- Reads an anchor and a tag, in either order. -/
def properties (b : Builder) : Properties × Builder :=
  match b.peek with
  | some (.anchor name) =>
    let b := b.pass
    match b.peek with
    | some (.tag handle suffix) => (⟨some name, some (handle, suffix)⟩, b.pass)
    | _ => (⟨some name, none⟩, b)
  | some (.tag handle suffix) =>
    let b := b.pass
    match b.peek with
    | some (.anchor name) => (⟨some name, some (handle, suffix)⟩, b.pass)
    | _ => (⟨none, some (handle, suffix)⟩, b)
  | _ => (⟨none, none⟩, b)

/-- The full tag for a handle and a suffix, if the handle is known. -/
def fullTag? (b : Builder) (tag : String × String) : Option String :=
  if tag.1.isEmpty then some tag.2
  else ((b.handles ++ defaultHandles).lookup tag.1).map (· ++ tag.2)

/-- Gives an anchored node its number. -/
def open_ (b : Builder) (anchor : Option String) : Option Nat × Builder :=
  match anchor with
  | none => (none, b)
  | some name =>
    (some b.anchorCount, { b with
      anchors := (name, b.anchorCount) :: b.anchors, anchorCount := b.anchorCount + 1 })

/-- Keeps a finished node under its number; `before` is the count of aliases before it. -/
def close (b : Builder) (number : Option Nat) (before : Nat) (node : Node) : Node × Builder :=
  match number with
  | none => (node, b)
  | some n => (node, { b with nodes := (n, node, b.jumps - before) :: b.nodes })

/-- The node an alias stands for. -/
def follow (b : Builder) (name : String) : Node × Builder :=
  match b.anchors.lookup name with
  | none => b.cut
  | some n =>
    match b.nodes.lookup n with
    | none => (.cycle, b.mark 1)
    | some (node, inside) => (node, { b.mark 1 with jumps := b.jumps + inside + 1 })

/-- A scalar with its properties. -/
def leaf (b : Builder) (anchor : Option String) (s : Scalar) : Node × Builder :=
  let (number, b) := b.open_ anchor
  (b.mark 1).close number b.jumps (.scalar s)

/-- An empty scalar in the place of a node that is not written. -/
def omitted (b : Builder) : Node × Builder :=
  b.leaf none ⟨"", .plain, none⟩

/-- The kinds of collections, by what opens them. -/
inductive Shape where
  | blockSequence
  /-- A sequence at the column of the mapping around it, which no token closes. -/
  | openSequence
  | blockMapping
  | flowSequence
  | flowMapping

/-- The shape of the collection that a token opens. -/
def shapeOf (block indentless : Bool) : Token → Option Shape
  | .item => if indentless then some .openSequence else none
  | .flowSequenceStart => some .flowSequence
  | .flowMappingStart => some .flowMapping
  | .blockSequenceStart => if block then some .blockSequence else none
  | .blockMappingStart => if block then some .blockMapping else none
  | _ => none

/-- Whether the next token is one of the given ones. -/
def nextIn (b : Builder) (ts : List Token) : Bool :=
  b.peek.any (ts.contains ·)

mutual

/-- Reads a node. `block` allows block collections, and `indentless` a sequence at the column of
the mapping around it. -/
def node : Nat → (block indentless : Bool) → Builder → Node × Builder
  | 0, _, _, b => b.cut
  | fuel + 1, block, indentless, b =>
    match b.peek with
    | some (.alias name) => b.pass.follow name
    | _ =>
      let (props, b) := b.properties
      let tag := props.tag.map b.fullTag?
      match b.peek with
      | none => b.cut
      | some t =>
        if tag == some none then b.cut
        else
          let tag := tag.join
          match t with
          | .scalar text style =>
            let tag := if tag == some "!" then none else tag
            b.pass.leaf props.anchor ⟨text, style, tag⟩
          | _ =>
            match shapeOf block indentless t with
            | some shape =>
              let (number, b) := b.open_ props.anchor
              let before := b.jumps
              let (n, b) := collection fuel shape tag (b.mark 2)
              b.close number before n
            | none =>
              if props.anchor.isSome || tag.isSome then b.leaf props.anchor ⟨"", .plain, tag⟩
              else b.cut

/-- Reads a collection at the token that opens it. -/
def collection : Nat → Shape → Option String → Builder → Node × Builder
  | 0, _, _, b => b.cut
  | fuel + 1, shape, tag, b =>
    match shape with
    | .blockSequence =>
      let (items, b) := blockItems fuel true b.pass []
      (.sequence tag items.reverse, b)
    | .openSequence =>
      let (items, b) := blockItems fuel false b []
      (.sequence tag items.reverse, b)
    | .blockMapping =>
      let (entries, b) := blockEntries fuel b.pass []
      (.mapping tag entries.reverse, b)
    | .flowSequence =>
      let (items, b) := flowItems fuel true b.pass []
      (.sequence tag items.reverse, b)
    | .flowMapping =>
      let (entries, b) := flowEntries fuel true b.pass []
      (.mapping tag entries.reverse, b)

/-- Reads the items of a block sequence; `closed` says that a token marks its end. -/
def blockItems : Nat → (closed : Bool) → Builder → List Node → List Node × Builder
  | 0, _, b, acc => (.cut :: acc, b.fail)
  | fuel + 1, closed, b, acc =>
    match b.peek with
    | some .item =>
      let b := b.pass
      match b.peek with
      | none => (.cut :: acc, b.fail)
      | some _ =>
        let (n, b) :=
          if b.nextIn (if closed then [.item, .blockEnd] else [.item, .key, .value, .blockEnd]) then
            b.omitted
          else node fuel true false b
        if b.broken then (.cut :: n :: acc, b) else blockItems fuel closed b (n :: acc)
    | some .blockEnd => (acc, if closed then b.pass else b)
    | some _ => if closed then (.cut :: acc, b.fail) else (acc, b)
    | none => (.cut :: acc, b.fail)

/-- Reads the entries of a block mapping. -/
def blockEntries : Nat → Builder → List (Node × Node) → List (Node × Node) × Builder
  | 0, b, acc => ((.cut, .cut) :: acc, b.fail)
  | fuel + 1, b, acc =>
    match b.peek with
    | some .blockEnd => (acc, b.pass)
    | some .key =>
      let (k, b) := blockPart fuel b.pass
      if b.broken then ((.cut, .cut) :: (k, .cut) :: acc, b)
      else
        match b.peek with
        | some .value =>
          let (v, b) := blockPart fuel b.pass
          if b.broken then ((.cut, .cut) :: (k, v) :: acc, b) else blockEntries fuel b ((k, v) :: acc)
        | some _ =>
          let (v, b) := b.omitted
          blockEntries fuel b ((k, v) :: acc)
        | none => ((.cut, .cut) :: (k, .cut) :: acc, b.fail)
    | _ => ((.cut, .cut) :: acc, b.fail)

/-- Reads the key or the value of an entry of a block mapping after its mark. -/
def blockPart : Nat → Builder → Node × Builder
  | 0, b => b.cut
  | fuel + 1, b =>
    match b.peek with
    | none => b.cut
    | some _ =>
      if b.nextIn [.key, .value, .blockEnd] then b.omitted else node fuel true true b

/-- Reads the items of a flow sequence; an item with a key is a mapping of one entry. -/
def flowItems : Nat → (first : Bool) → Builder → List Node → List Node × Builder
  | 0, _, b, acc => (.cut :: acc, b.fail)
  | fuel + 1, first, b, acc =>
    match b.peek with
    | none => (.cut :: acc, b.fail)
    | some .flowSequenceEnd => (acc, b.pass)
    | some t =>
      if !first && t != .comma then (.cut :: acc, b.fail)
      else
        let b := if first then b else b.pass
        match b.peek with
        | none => (.cut :: acc, b.fail)
        | some .flowSequenceEnd => (acc, b.pass)
        | some .key =>
          let (n, b) := flowPair fuel (b.pass.mark 2)
          if b.broken then (.cut :: n :: acc, b) else flowItems fuel false b (n :: acc)
        | some _ =>
          let (n, b) := node fuel false false b
          if b.broken then (.cut :: n :: acc, b) else flowItems fuel false b (n :: acc)

/-- Reads an item with a key in a flow sequence after the key's mark. A key that is not written
takes the token in its place with it. -/
def flowPair : Nat → Builder → Node × Builder
  | 0, b => b.cut
  | fuel + 1, b =>
    match b.peek with
    | none => (.mapping none [(.cut, .cut)], b.fail)
    | some _ =>
      let (k, b) :=
        if b.nextIn [.value, .comma, .flowSequenceEnd] then b.pass.omitted
        else node fuel false false b
      if b.broken then (.mapping none [(k, .cut), (.cut, .cut)], b)
      else
        match b.peek with
        | none => (.mapping none [(k, .cut), (.cut, .cut)], b.fail)
        | some .value =>
          let b := b.pass
          match b.peek with
          | none => (.mapping none [(k, .cut), (.cut, .cut)], b.fail)
          | some _ =>
            let (v, b) :=
              if b.nextIn [.comma, .flowSequenceEnd] then b.omitted else node fuel false false b
            if b.broken then (.mapping none [(k, v), (.cut, .cut)], b)
            else (.mapping none [(k, v)], b)
        | some _ =>
          let (v, b) := b.omitted
          (.mapping none [(k, v)], b)

/-- Reads the entries of a flow mapping. -/
def flowEntries :
    Nat → (first : Bool) → Builder → List (Node × Node) → List (Node × Node) × Builder
  | 0, _, b, acc => ((.cut, .cut) :: acc, b.fail)
  | fuel + 1, first, b, acc =>
    match b.peek with
    | none => ((.cut, .cut) :: acc, b.fail)
    | some .flowMappingEnd => (acc, b.pass)
    | some t =>
      if !first && t != .comma then ((.cut, .cut) :: acc, b.fail)
      else
        let b := if first then b else b.pass
        match b.peek with
        | none => ((.cut, .cut) :: acc, b.fail)
        | some .flowMappingEnd => (acc, b.pass)
        | some .key =>
          let b := b.pass
          match b.peek with
          | none => ((.cut, .cut) :: acc, b.fail)
          | some _ =>
            let (k, b) :=
              if b.nextIn [.value, .comma, .flowMappingEnd] then b.omitted
              else node fuel false false b
            if b.broken then ((.cut, .cut) :: (k, .cut) :: acc, b)
            else
              match b.peek with
              | none => ((.cut, .cut) :: (k, .cut) :: acc, b.fail)
              | some .value =>
                let b := b.pass
                match b.peek with
                | none => ((.cut, .cut) :: (k, .cut) :: acc, b.fail)
                | some _ =>
                  let (v, b) :=
                    if b.nextIn [.comma, .flowMappingEnd] then b.omitted
                    else node fuel false false b
                  if b.broken then ((.cut, .cut) :: (k, v) :: acc, b)
                  else flowEntries fuel false b ((k, v) :: acc)
              | some _ =>
                let (v, b) := b.omitted
                flowEntries fuel false b ((k, v) :: acc)
        | some _ =>
          let (k, b) := node fuel false false b
          if b.broken then ((.cut, .cut) :: (k, .cut) :: acc, b)
          else
            let (v, b) := b.omitted
            flowEntries fuel false b ((k, v) :: acc)

end

/-! ## Around a document -/

/-- Reads the directives before a document. A second version, a version that is not 1.1 or 1.2, and
a handle given twice break the rules. -/
def directives : List Token → Option Nat → Builder → Builder
  | .version major minor :: rest, seen, b =>
    if seen.isSome || major != 1 || (minor != 1 && minor != 2) then b.fail
    else directives rest (some minor) { b with tokens := rest }
  | .handle name replacement :: rest, seen, b =>
    if (b.handles.lookup name).isSome then b.fail
    else directives rest seen
      { b with tokens := rest, handles := b.handles ++ [(name, replacement)] }
  | _, _, b => b

/-- Whether a token says something about the document after it, or starts it. -/
def startsExplicitly : Token → Bool
  | .version _ _ | .handle _ _ | .documentStart => true
  | _ => false

/-- The content of a document after its start mark: nothing at all counts as an empty scalar. -/
def content (fuel : Nat) (b : Builder) : Node × Builder :=
  match b.peek with
  | some (.version _ _) | some (.handle _ _) | some .documentStart | some .documentEnd
  | some .streamEnd => b.omitted
  | _ => node fuel true false b

/-- Whether nothing but end marks follows. -/
def atEnd (tokens : List Token) : Bool :=
  tokens.dropWhile (· == .documentEnd) == [.streamEnd]

/-- Reads the first document. -/
def document (b : Builder) : Document :=
  let fuel := 4 * b.tokens.length + 8
  let finish (result : Node × Builder) : Document :=
    let (root, b) := result
    { root := root, complete := !b.broken && atEnd b.tokens, marks := b.marks, jumps := b.jumps }
  match b.peek with
  | some .streamEnd => { root := .empty, complete := true, marks := 1, jumps := 0 }
  | some t =>
    if startsExplicitly t then
      let b := directives b.tokens none b
      if b.broken || b.peek != some .documentStart then finish b.cut
      else finish (content fuel b.pass)
    else finish (node fuel true false b)
  | none => finish b.cut

end Builder

/-- Reads the first document of a text. -/
def Document.read (text : String) : Document :=
  (Builder.start (scan text)).document

end ReleaseCandidates.Yaml
