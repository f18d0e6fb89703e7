import Stencil.Json.Lexeme

/-!
# Tokens of a document

A document is first cut into tokens, each with the places where it starts and stops; blanks between
tokens disappear here. The structure is read from the tokens afterwards.

A literal that is well formed and yet has no value, a number beyond the largest double or half a
surrogate pair, is still one token: whether it matters depends on whether its value is wanted.
Cutting stops at the first character that starts no token and at the first malformed literal.
-/

namespace Stencil.Json

/-- A value without parts. -/
inductive Scalar where
  | null
  | bool (b : Bool)
  | number (n : Number)
  | text (s : String)

/-- The scalar as a message names it. -/
def Scalar.found : Scalar → Found
  | .null => .null
  | .bool b => .bool b
  | .number n => .number n
  | .text s => .text s

/-- What a token is. `quoted` tells strings from other literals. -/
inductive Kind where
  | openTable
  | closeTable
  | openList
  | closeList
  | colon
  | comma
  | scalar (value : Scalar)
  | worthless (quoted : Bool) (fault : Fault)
  | broken (quoted : Bool) (strict lenient : Fault)
  | stray
  | ending

/-- Whether no token follows one of this kind. -/
def Kind.isLast : Kind → Bool
  | .broken .. => true
  | .stray => true
  | .ending => true
  | _ => false

/-- A token and its places. -/
structure Token where
  start : Position
  stop : Position
  kind : Kind

namespace Token

/-- The place after the first octet of a token, or the end of the text. -/
def peek (t : Token) : Position :=
  match t.kind with
  | .ending => t.start
  | _ => ⟨t.start.line, t.start.column + 1⟩

/-- A blank between tokens. -/
def isBlank (c : Char) : Bool :=
  c == ' ' || c == '\n' || c == '\t' || c == '\r'

/-- The place that a reading reached. -/
def reached (p : Position) (cs rest : List Char) : Position :=
  p.pastAll (cs.take (cs.length - rest.length))

/-- The fault of a failed reading that started at `p`. -/
def locate (p : Position) (cs : List Char) (f : Lexeme.Failure) : Fault :=
  ⟨f.cause, (reached p cs f.rest).pastOctets f.rest f.beyond⟩

/-- The token of a literal, from its strict and its lenient reading. -/
def literal {α : Type} (p : Position) (cs : List Char) (quoted : Bool) (value : α → Scalar)
    (strict : Lexeme.Reading α) (lenient : Lexeme.Reading Unit) : Kind × List Char :=
  match lenient with
  | .error f =>
    match strict with
    | .error g => (.broken quoted (locate p cs g) (locate p cs f), cs)
    | .ok _ => (.broken quoted (locate p cs f) (locate p cs f), cs)
  | .ok (_, rest) =>
    match strict with
    | .error g => (.worthless quoted (locate p cs g), rest)
    | .ok (v, _) => (.scalar (value v), rest)

/-- The token of a word. -/
def wordLiteral (p : Position) (cs : List Char) (letters : List Char) (value : Scalar) :
    Kind × List Char :=
  literal p cs false (fun _ => value) (Lexeme.word letters cs) (Lexeme.word letters cs)

/-- The token at `p` that starts with the character `c`, and the text after it. -/
def lexeme (p : Position) (c : Char) (rest : List Char) : Kind × List Char :=
  let q := p.past c
  match c with
  | '{' => (.openTable, rest)
  | '}' => (.closeTable, rest)
  | '[' => (.openList, rest)
  | ']' => (.closeList, rest)
  | ':' => (.colon, rest)
  | ',' => (.comma, rest)
  | 'n' => wordLiteral q rest ['u', 'l', 'l'] .null
  | 't' => wordLiteral q rest ['r', 'u', 'e'] (.bool true)
  | 'f' => wordLiteral q rest ['a', 'l', 's', 'e'] (.bool false)
  | '"' =>
    literal q rest true (fun s => .text (String.ofList s)) (Lexeme.text rest) (Lexeme.skipText rest)
  | '-' => literal q rest false .number (Lexeme.number true rest) (Lexeme.skipNumber rest)
  | c =>
    if c.isDigit then
      literal p (c :: rest) false .number (Lexeme.number false (c :: rest))
        (Lexeme.skipNumber (c :: rest))
    else (.stray, rest)

/-- Whether no token follows, or the text after a token is shorter than `bound`. -/
def Ends (r : Kind × List Char) (bound : Nat) : Prop :=
  r.1.isLast = true ∨ r.2.length < bound

/-- The token of a literal ends within a bound if its lenient reading does. -/
theorem ends_literal {α : Type} (p : Position) (cs : List Char) (quoted : Bool)
    (value : α → Scalar) (strict : Lexeme.Reading α) (lenient : Lexeme.Reading Unit) (bound : Nat)
    (h : ∀ rest, lenient = .ok ((), rest) → rest.length < bound) :
    Ends (literal p cs quoted value strict lenient) bound := by
  unfold literal
  split
  · split <;> exact .inl rfl
  · split <;> exact .inr (h _ rfl)

/-- The token of a literal after its first character ends before the text did. -/
theorem ends_of_shrinks {α : Type} (p : Position) (c : Char) (rest : List Char) (quoted : Bool)
    (value : α → Scalar) (strict : Lexeme.Reading α) (lenient : Lexeme.Reading Unit)
    (h : Lexeme.Shrinks rest lenient) :
    Ends (literal p rest quoted value strict lenient) (c :: rest).length :=
  ends_literal _ _ _ _ _ _ _ fun rest' h' => by
    have := h () rest' h'
    simp
    omega

/-- A token uses up at least its first character. -/
theorem ends_lexeme (p : Position) (c : Char) (rest : List Char) :
    Ends (lexeme p c rest) (c :: rest).length := by
  unfold lexeme
  extract_lets q
  split
  iterate 6 exact .inr (by simp)
  iterate 3 exact ends_of_shrinks _ _ _ _ _ _ _ (Lexeme.shrinks_word _ _)
  · exact ends_of_shrinks _ _ _ _ _ _ _ (Lexeme.shrinks_skipText _)
  · exact ends_literal _ _ _ _ _ _ _ fun rest' h => by
      have := Lexeme.length_skipNumber_lt h
      simp
      omega
  · split
    · exact ends_literal _ _ _ _ _ _ _ fun rest' h => Lexeme.length_skipNumber_lt h
    · exact .inl rfl

/-- The tokens of a text that continues at `p`. -/
def scanFrom (p : Position) (cs : List Char) : List Token :=
  match cs with
  | [] => [⟨p, p, .ending⟩]
  | c :: rest =>
    if isBlank c then scanFrom (p.past c) rest
    else
      let r := lexeme p c rest
      let stop := reached p cs r.2
      if _h : r.1.isLast = true then [⟨p, stop, r.1⟩] else ⟨p, stop, r.1⟩ :: scanFrom stop r.2
termination_by cs.length
decreasing_by
  · simp
  · exact (ends_lexeme p c rest).resolve_left _h

/-- The tokens of a text. -/
def scan (text : String) : List Token :=
  scanFrom .start text.toList

end Token

end Stencil.Json
