import RandomTables.Decimal.Nearest
import RandomTables.Yaml.Node

/-! # YAML values -/

namespace RandomTables.Yaml

inductive Value where
  | null
  | bool (value : Bool)
  | int (value : Int)
  | float (value : Float)
  | string (value : Text)
  | sequence (items : List Value)
  | mapping (entries : List (Value × Value))
  | tagged (tag : Text) (value : Value)

namespace Value

/-! ## Plain scalars -/

def ofNull? (t : Text) : Option Value :=
  if ["~", "null", "Null", "NULL"].any (·.toList == t) then some .null else none

def ofBool? (t : Text) : Option Value :=
  if ["true", "True", "TRUE"].any (·.toList == t) then some (.bool true)
  else if ["false", "False", "FALSE"].any (·.toList == t) then some (.bool false)
  else none

/-- Digits that a leading zero keeps from being a number. -/
def isPadded (t : Text) : Bool :=
  let t := match t with
    | '-' :: t | '+' :: t => t
    | t => t
  1 < t.length && t.head? == some '0' && t.all Char.isDigit

/-- The magnitude of a whole number without its sign. -/
def magnitude? : Text → Option Nat
  | '0' :: 'x' :: t => Text.radixNumber? 16 t
  | '0' :: 'o' :: t => Text.radixNumber? 8 t
  | '0' :: 'b' :: t => Text.radixNumber? 2 t
  | t => if isPadded t then none else Text.radixNumber? 10 t

/-- What a text is as a whole number. -/
inductive Whole where
  | none
  | tooLarge
  | int (value : Int)

/-- Whole numbers have 64 bits. A text that writes one of up to 128 bits is an error, and any
longer one is no whole number. -/
def whole (t : Text) : Whole :=
  match t with
  | '-' :: t =>
    match magnitude? t with
    | some n => if n ≤ 1 <<< 63 then .int (-n) else if n ≤ 1 <<< 127 then .tooLarge else .none
    | none => .none
  | t =>
    match magnitude? (match t with | '+' :: t => t | t => t) with
    | some n => if n < 1 <<< 64 then .int n else if n < 1 <<< 128 then .tooLarge else .none
    | none => .none

/-- A float; a number too large for one is none. -/
def ofFloat? (t : Text) : Option Value :=
  if [".inf", ".Inf", ".INF", "+.inf", "+.Inf", "+.INF"].any (·.toList == t) then
    some (.float (1 / 0))
  else if ["-.inf", "-.Inf", "-.INF"].any (·.toList == t) then some (.float (-1 / 0))
  else if [".nan", ".NaN", ".NAN"].any (·.toList == t) then some (.float (0 / 0))
  else
    let (negative, t) := match t with
      | '-' :: t => (true, t)
      | '+' :: t => (false, t)
      | t => (false, t)
    match Decimal.nearest? t with
    | some x => if x.isFinite then some (.float (if negative then -x else x)) else none
    | none => none

/-- The value of a plain scalar. -/
def ofPlain? (t : Text) : Option Value :=
  if t.isEmpty then some .null
  else
    match (ofNull? t).or (ofBool? t), whole t with
    | some value, _ => some value
    | none, .int n => some (.int n)
    | none, .tooLarge => none
    | none, .none =>
      if isPadded t then some (.string t) else some ((ofFloat? t).getD (.string t))

/-! ## Tagged scalars -/

/-- The value of a scalar without regard to its tag. -/
def ofUntagged? : Style → Text → Option Value
  | .plain, t => ofPlain? t
  | .quoted, t => some (.string t)

/-- The value of a scalar. A standard tag asks for its own kind of value, however it is written, and
a local tag whose name counts stays on the value. -/
def ofScalar? (tag : Option Tag) (style : Style) (t : Text) : Option Value :=
  match tag with
  | none => ofUntagged? style t
  | some tag =>
    match tag.localName? with
    | some name => (ofUntagged? style t).map (.tagged name)
    | none =>
      if tag.isLocal then ofUntagged? style t
      else if tag == Tag.standard "bool" then ofBool? t
      else if tag == Tag.standard "int" then
        match whole t with
        | .int n => some (.int n)
        | _ => none
      else if tag == Tag.standard "float" then ofFloat? t
      else if tag == Tag.standard "null" then ofNull? t
      else some (.string t)

/-! ## Equality of keys -/

/-- The name of a tag as it is compared: a mark in front does not matter. -/
def comparedName : Text → Text
  | '!' :: c :: t => c :: t
  | name => name

mutual

/-- Two values are the same key. The order of a mapping does not matter. -/
def same : Value → Value → Bool
  | .null, .null => true
  | .bool a, .bool b => a == b
  | .int a, .int b => a == b
  | .float a, .float b => a == b || (a.isNaN && b.isNaN)
  | .string a, .string b => a == b
  | .sequence a, .sequence b => sameItems a b
  | .mapping a, .mapping b => a.length == b.length && sameEntries a b
  | .tagged s a, .tagged t b => comparedName s == comparedName t && same a b
  | _, _ => false

def sameItems : List Value → List Value → Bool
  | [], [] => true
  | a :: as, b :: bs => same a b && sameItems as bs
  | _, _ => false

def sameEntries : List (Value × Value) → List (Value × Value) → Bool
  | [], _ => true
  | (key, value) :: rest, entries =>
    entries.any (fun (k, v) => same key k && same value v) && sameEntries rest entries

end

def hasKey (entries : List (Value × Value)) (key : Value) : Bool :=
  entries.any fun (k, _) => same k key

end Value

/-! ## Anchors -/

/-- The anchors met so far. -/
structure Anchors where
  /-- The number that an alias of a name points at. -/
  numbers : List (Text × Nat) := []
  /-- How many nodes with an anchor have started. -/
  started : Nat := 0
  /-- The nodes with an anchor: the number, the place among those nodes, and the node. -/
  nodes : List (Nat × Nat × Node Nat) := []

namespace Anchors

/-- Numbers the anchor of a node. Its number is the count of names known before it, so that a name
in use again can share its number with the next new name. -/
def number (anchors : Anchors) (name : Text) : Nat × Anchors :=
  let number := anchors.numbers.length
  (number, { anchors with
    numbers := (name, number) :: anchors.numbers.filter (·.1 != name)
    started := anchors.started + 1 })

/-- The node with a number, of several the one that started last. -/
def node? (anchors : Anchors) (number : Nat) : Option (Node Nat) :=
  let sharing := anchors.nodes.filter (·.1 == number)
  let last := (sharing.map fun (_, place, _) => place).foldl max 0
  (sharing.find? fun (_, place, _) => place == last).map fun (_, _, node) => node

end Anchors

abbrev Numbering := StateT Anchors Option

namespace Numbering

/-- Numbers the anchor of a node before its content, which may have anchors of its own. -/
def anchored (properties : Properties) (content : Numbering (Node Nat)) : Numbering (Node Nat) :=
  match properties.anchor with
  | none => content
  | some name => do
    let anchors ← get
    let place := anchors.started
    let (number, anchors) := anchors.number name
    set anchors
    let node ← content
    modify fun anchors => { anchors with nodes := (number, place, node) :: anchors.nodes }
    pure node

mutual

/-- Replaces the names of aliases by numbers. An alias of an unknown name is an error. -/
def node : NamedNode → Numbering (Node Nat)
  | .alias name => fun anchors =>
    (anchors.numbers.lookup name).map fun number => (.alias number, anchors)
  | .scalar properties style text => anchored properties (pure (.scalar properties style text))
  | .sequence properties items => anchored properties do
    return .sequence properties (← nodes items)
  | .mapping properties entries => anchored properties do
    return .mapping properties (← nodeEntries entries)

def nodes : List NamedNode → Numbering (List (Node Nat))
  | [] => pure []
  | item :: rest => do
    let first ← node item
    let more ← nodes rest
    pure (first :: more)

def nodeEntries : List (NamedNode × NamedNode) → Numbering (List (Node Nat × Node Nat))
  | [] => pure []
  | (key, value) :: rest => do
    let key ← node key
    let value ← node value
    let more ← nodeEntries rest
    pure ((key, value) :: more)

end

end Numbering

/-! ## Resolving nodes -/

/-- A computation that may follow a number of aliases, which it counts down. -/
abbrev Resolve := StateT Nat Option

namespace Resolve

def fail {α : Type} : Resolve α := fun _ => none

def ofOption {α : Type} (result : Option α) : Resolve α := fun left =>
  result.map fun a => (a, left)

/-- Follows one alias if that is still allowed. -/
def follow : Resolve Unit
  | 0 => none
  | left + 1 => some ((), left)

/-- Puts the tag of a collection on its value; only a local tag whose name counts shows. -/
def withTag (properties : Properties) (value : Value) : Value :=
  match properties.tag.bind Tag.localName? with
  | some name => .tagged name value
  | none => value

/-- Resolves the entries behind those that are known; a repeated key is an error. -/
def entries (resolve : Node Nat → Resolve Value) (known : List (Value × Value)) :
    List (Node Nat × Node Nat) → Resolve (List (Value × Value))
  | [] => pure known.reverse
  | (key, value) :: rest => do
    let key ← resolve key
    if Value.hasKey known key then fail
    else do
      let value ← resolve value
      entries resolve ((key, value) :: known) rest

/-- The value of a node that is no alias, with at most `depth` collections inside each other. -/
def content (resolve : Node Nat → Resolve Value) : Node Nat → Resolve Value
  | .alias _ => fail
  | .scalar properties style text => ofOption (Value.ofScalar? properties.tag style text)
  | .sequence properties items => do
    return withTag properties (.sequence (← items.mapM resolve))
  | .mapping properties pairs => do
    return withTag properties (.mapping (← entries resolve [] pairs))

def isCollection : Node Nat → Bool
  | .sequence .. | .mapping .. => true
  | .alias _ | .scalar .. => false

/-- The value of a node, with at most `depth` collections inside each other. -/
def node (anchors : Anchors) : (depth : Nat) → Node Nat → Resolve Value
  | depth, written => do
    let node ← match written with
      | .alias number => do
        follow
        ofOption (anchors.node? number)
      | node => pure node
    match depth with
    | 0 => if isCollection node then fail else content (fun _ => fail) node
    | depth + 1 => content (Resolve.node anchors depth) node

end Resolve

/-! ## Documents -/

mutual

/-- The number of steps in which a node is read: two for a collection, one for any other node. -/
def Node.weight {α : Type} : Node α → Nat
  | .alias _ => 1
  | .scalar _ _ _ => 1
  | .sequence _ items => weightOf items + 2
  | .mapping _ entries => weightOfEntries entries + 2

def Node.weightOf {α : Type} : List (Node α) → Nat
  | [] => 0
  | node :: rest => node.weight + weightOf rest

def Node.weightOfEntries {α : Type} : List (Node α × Node α) → Nat
  | [] => 0
  | (key, value) :: rest => key.weight + value.weight + weightOfEntries rest

end

/-- The value of a document. Collections are nested up to 128 deep, and aliases must not blow up
the document. -/
def Value.ofNode? (written : NamedNode) : Option Value := do
  let (node, anchors) ← (Numbering.node written).run {}
  let (value, _) ← (Resolve.node anchors 128 node).run (100 * written.weight)
  some value

/-- The documents of a text. A document that is in error ends the stream with nothing. -/
def documents (t : Text) : List (Option Value) :=
  let tokens := Token.ofText t
  (Node.documents (tokens.length + 1) true tokens).map fun node => node.bind Value.ofNode?

end RandomTables.Yaml
