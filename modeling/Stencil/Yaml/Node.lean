import Stencil.Table
import Stencil.Yaml.Property
import Stencil.Yaml.Token

/-!
# Nodes

A document is a tree of scalars, lists and tables. Where an alias stands the tree holds a number,
and the anchored nodes are kept under their numbers, since a node may hold aliases of itself.

An anchor's number is the count of the names before it. A name that is given again gets a number
anew, and the next new name gets that same number; of two anchors with one number the later one
counts.
-/

namespace Stencil.Yaml

/-- A node. Tags matter for scalars only. -/
inductive Node where
  | scalar (style : Style) (tag : Option String) (text : String)
  | list (items : List Node)
  | table (entries : List (Node × Node))
  | alias (number : Nat)

/-- What stands where a node is left out. -/
def Node.blank (tag : Option String) : Node := .scalar .plain tag ""

/-- A node tree and the anchored nodes. The tree is missing where a text holds no document. -/
structure Document where
  root : Option Node
  anchored : Nat → Option Node

/-! ## Building -/

/-- What is left of the tokens, what handles stand for, the numbers of the names, the anchored nodes
in the order of their anchors, and which of them a number stands for. -/
structure Builder where
  tokens : List Token
  handles : List (String × String) := []
  numbers : Table Nat := []
  nodes : Array Node := #[]
  places : List (Nat × Nat) := []

/-- A step of building, which the tokens may not allow. -/
abbrev Build := StateT Builder Option

namespace Build

/-- The next token. -/
def peek? : Build (Option Token) := return (← get).tokens.head?

/-- Passes over a token. -/
def advance : Build Unit := modify fun b => { b with tokens := b.tokens.tail }

/-- Passes over a token if it is the given one. -/
def pass? (t : Token) : Build Bool := do
  if (← peek?) == some t then
    advance
    return true
  else return false

/-- Passes over the given token, which has to be next. -/
def pass (t : Token) : Build Unit := do if ← pass? t then return () else failure

/-- Whether the next token is one of the given ones. -/
def sees (ts : List Token) : Build Bool := return (← peek?).any ts.contains

/-- Gives a name to the node to come, and says the place that the node will have. -/
def enroll (name : String) : Build Nat :=
  modifyGet fun b =>
    let number := b.numbers.length
    let place := b.nodes.size
    (place,
      { b with
        numbers := b.numbers.insert name number
        nodes := b.nodes.push (.blank none)
        places := (number, place) :: b.places })

/-- Puts a node in the place of its anchor, if it has one. -/
def settle (place : Option Nat) (n : Node) : Build Node := do
  match place with
  | none => return n
  | some place => modifyGet fun b => (n, { b with nodes := b.nodes.setIfInBounds place n })

/-- What a tag is short for. -/
def expand (handle suffix : String) : Build String := do
  if handle.isEmpty then return suffix
  else
    match (← get).handles.lookup handle with
    | some uri => return uri ++ suffix
    | none => failure

/-- The anchor and the tag of the node to come, in either order, each at most once. -/
def properties : Build (Option Nat × Option String) := do
  match ← peek? with
  | some (.anchor name) =>
    advance
    match ← peek? with
    | some (.tag handle suffix) =>
      advance
      let tag ← expand handle suffix
      return (some (← enroll name), some tag)
    | _ => return (some (← enroll name), none)
  | some (.tag handle suffix) =>
    advance
    let tag ← expand handle suffix
    match ← peek? with
    | some (.anchor name) =>
      advance
      return (some (← enroll name), some tag)
    | _ => return (none, some tag)
  | _ => return (none, none)

/-- A node of which there is no more than its anchor or its tag. -/
def leftOut (place : Option Nat) (tag : Option String) : Build Node :=
  if place.isSome || tag.isSome then settle place (.blank tag) else failure

/-! ## The grammar -/

/-- The tokens before which a key or a value of a block is left out. -/
def beforeBlank : List Token := [.key, .value, .blockEnd]

mutual

/-- A node. Blocks are for places outside brackets; items without a block of their own are for keys
and values of blocks. -/
def node : Nat → (inBlock bareItems : Bool) → Build Node
  | 0, _, _ => failure
  | n + 1, inBlock, bareItems => do
    match ← peek? with
    | some (.alias name) =>
      advance
      match (← get).numbers.get? name with
      | some number => return .alias number
      | none => failure
    | _ =>
      let (place, tag) ← properties
      match ← peek? with
      | some (.scalar style text) =>
        advance
        settle place (.scalar style tag text)
      | some .flowList =>
        advance
        settle place (.list (← flowItems n true))
      | some .flowTable =>
        advance
        settle place (.table (← flowEntries n true))
      | some .item =>
        if bareItems then settle place (.list (← bareItemsFrom n)) else leftOut place tag
      | some .blockList =>
        if inBlock then
          advance
          settle place (.list (← blockItems n))
        else leftOut place tag
      | some .blockTable =>
        if inBlock then
          advance
          settle place (.table (← blockEntries n))
        else leftOut place tag
      | _ => leftOut place tag

/-- A node, or a blank one before the given tokens. -/
def nodeUnless : Nat → List Token → (inBlock bareItems : Bool) → Build Node
  | 0, _, _, _ => failure
  | n + 1, ts, inBlock, bareItems => do
    if ← sees ts then return .blank none else node n inBlock bareItems

/-- The node after a colon, or a blank one where there is no colon. -/
def valueUnless : Nat → List Token → (inBlock : Bool) → Build Node
  | 0, _, _ => failure
  | n + 1, ts, inBlock => do
    if ← pass? .value then nodeUnless n ts inBlock inBlock else return .blank none

/-- The items of a block, up to its end. -/
def blockItems : Nat → Build (List Node)
  | 0 => failure
  | n + 1 => do
    if ← pass? .item then
      let first ← nodeUnless n [.item, .blockEnd] true false
      return first :: (← blockItems n)
    else
      pass .blockEnd
      return []

/-- The items that follow without a block of their own. -/
def bareItemsFrom : Nat → Build (List Node)
  | 0 => failure
  | n + 1 => do
    if ← pass? .item then
      let first ← nodeUnless n (.item :: beforeBlank) true false
      return first :: (← bareItemsFrom n)
    else return []

/-- The entries of a block, up to its end. -/
def blockEntries : Nat → Build (List (Node × Node))
  | 0 => failure
  | n + 1 => do
    if ← pass? .key then
      let key ← nodeUnless n beforeBlank true true
      let value ← valueUnless n beforeBlank true
      return (key, value) :: (← blockEntries n)
    else
      pass .blockEnd
      return []

/-- The items in square brackets, up to the closing one. -/
def flowItems : Nat → (isFirst : Bool) → Build (List Node)
  | 0, _ => failure
  | n + 1, isFirst => do
    if ← pass? .flowListEnd then return []
    if !isFirst then
      pass .entry
      if ← pass? .flowListEnd then return []
    let first ← flowItem n
    return first :: (← flowItems n false)

/-- An item in square brackets. A key there is a table of its own, with its one entry. Where that
key is blank the token before which it is left out is passed over. -/
def flowItem : Nat → Build Node
  | 0 => failure
  | n + 1 => do
    if ← pass? .key then
      if ← sees [.value, .entry, .flowListEnd] then
        advance
        let value ← valueUnless n [.entry, .flowListEnd] false
        return .table [(.blank none, value)]
      else
        let key ← node n false false
        let value ← valueUnless n [.entry, .flowListEnd] false
        return .table [(key, value)]
    else node n false false

/-- The entries in curly brackets, up to the closing one. -/
def flowEntries : Nat → (isFirst : Bool) → Build (List (Node × Node))
  | 0, _ => failure
  | n + 1, isFirst => do
    if ← pass? .flowTableEnd then return []
    if !isFirst then
      pass .entry
      if ← pass? .flowTableEnd then return []
    let first ← flowEntry n
    return first :: (← flowEntries n false)

/-- An entry in curly brackets. -/
def flowEntry : Nat → Build (Node × Node)
  | 0 => failure
  | n + 1 => do
    if ← pass? .key then
      let key ← nodeUnless n [.value, .entry, .flowTableEnd] false false
      return (key, ← valueUnless n [.entry, .flowTableEnd] false)
    else return (← node n false false, .blank none)

end

end Build

/-! ## Documents -/

namespace Document

/-- What handles stand for unless a directive says otherwise. -/
def standardHandles : List (String × String) :=
  [(primaryHandle, primaryHandle), ("!!", "tag:yaml.org,2002:")]

/-- The handles that directives give, and the tokens after the directives. Each handle is given at
most once, and so is the version, which is 1.1 or 1.2. -/
def directives (versionSeen : Bool) (handles : List (String × String)) :
    List Token → Option (List (String × String) × List Token)
  | .version major minor :: rest =>
    if versionSeen || major != 1 || (minor != 1 && minor != 2) then none
    else directives true handles rest
  | .handle name uri :: rest =>
    if (handles.lookup name).isSome then none
    else directives versionSeen ((name, uri) :: handles) rest
  | rest => some (handles, rest)

/-- Whether a marked document holds nothing before the given tokens. -/
def isBlankBefore : List Token → Bool
  | [] => true
  | .version .. :: _ => true
  | .handle .. :: _ => true
  | .documentStart :: _ => true
  | .documentEnd :: _ => true
  | _ => false

/-- The root of a document and the tokens after it. -/
def build (isMarked : Bool) (b : Builder) : Option (Node × Builder) :=
  if isMarked && isBlankBefore b.tokens then some (.blank none, b)
  else (Build.node (4 * b.tokens.length + 4) true false).run b

/-- The one document that tokens spell. Directives come before a marked document only. -/
def ofTokens? : List Token → Option Document
  | [] => some ⟨none, fun _ => none⟩
  | t :: ts => do
    let (handles, rest) ← directives false [] (t :: ts)
    let isMarked := rest.head? == some .documentStart
    if !isMarked && rest.length != ts.length + 1 then none
    else
      let tokens := if isMarked then rest.tail else rest
      let (root, b) ← build isMarked { tokens, handles := handles ++ standardHandles }
      if (b.tokens.dropWhile (· == .documentEnd)).isEmpty then
        return ⟨some root, fun number => (b.places.lookup number).bind fun place => b.nodes[place]?⟩
      else none

end Document

end Stencil.Yaml
