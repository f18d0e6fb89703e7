import Stencil.Json.Printer
import Stencil.Proofs.Json.Literal
import Stencil.Proofs.Json.Stripping

/-!
# How documents are printed

A printed string is a string literal that is read as the text it stands for, whatever characters the
text has. A document that is printed with an item a line is a strict text: it has the symbols of the
document, and nothing but line ends and spaces between them.
-/

namespace Stencil.Json

/-! ## Strings -/

/-- A part of a string that is read as a character. -/
def Piece.StandsFor (piece : Piece) (c : Char) : Prop :=
  ∀ rest, Lexeme.text (piece.chars ++ rest) = (Lexeme.text rest).map fun r => (c :: r.1, r.2)

/-- An escape with a letter is read as what the letter stands for. -/
theorem Piece.standsFor_escape {letter value : Char} (h : (letter, value) ∈ escapeLetters) :
    (Piece.escape letter value h).StandsFor value := fun rest => by
  change Lexeme.text ('\\' :: letter :: rest) = _
  rw [text_backslash, Lexeme.escape, simpleEscape?_of_mem h]

/-- The digits of a control character are read as that character. -/
theorem Piece.standsFor_unit {digits : List Char} {c : Char} (h : CodeUnit digits c.toNat)
    (hc : c.toNat < 0x20) : (Piece.unit digits c.toNat h).StandsFor c := fun rest => by
  have htrailing : Lexeme.isTrailing c.toNat = false := by
    simp only [Lexeme.isTrailing, Bool.and_eq_false_iff, decide_eq_false_iff_not]
    omega
  have hleading : Lexeme.isLeading c.toNat = false := by
    simp only [Lexeme.isLeading, Bool.and_eq_false_iff, decide_eq_false_iff_not]
    omega
  change Lexeme.text ('\\' :: 'u' :: (digits ++ rest)) = _
  rw [text_backslash, escape_unit h, htrailing, hleading, if_neg Bool.false_ne_true,
    if_neg Bool.false_ne_true, Char.ofNat_toNat]

/-- The code unit of a control character has its digits, after zeros. -/
theorem codeUnit_control :
    (∀ n < 0x10, CodeUnit (['0', '0', '0'] ++ Text.hexDigits n) n) ∧
      ∀ n < 0x20, 0x10 ≤ n → CodeUnit (['0', '0'] ++ Text.hexDigits n) n := by
  simp only [CodeUnit, ← Text.hexNumber?_eq_some_iff]
  decide

/-- A character is printed as a part of a string that is read as the character. -/
theorem exists_piece (c : Char) :
    ∃ piece : Piece, piece.chars = escapeText c ∧ piece.StandsFor c := by
  have hletter (letter value : Char) (hmem : (letter, value) ∈ escapeLetters) :
      ∃ piece : Piece, piece.chars = ['\\', letter] ∧ piece.StandsFor value :=
    ⟨.escape letter value hmem, rfl, Piece.standsFor_escape hmem⟩
  fun_cases escapeText c with
  | case1 h => exact eq_of_beq h ▸ hletter '"' '"' (by decide)
  | case2 _ h => exact eq_of_beq h ▸ hletter '\\' '\\' (by decide)
  | case3 _ _ h => exact eq_of_beq h ▸ hletter 'b' '\x08' (by decide)
  | case4 _ _ _ h => exact eq_of_beq h ▸ hletter 'f' '\x0c' (by decide)
  | case5 _ _ _ _ h => exact eq_of_beq h ▸ hletter 'n' '\n' (by decide)
  | case6 _ _ _ _ _ h => exact eq_of_beq h ▸ hletter 'r' '\r' (by decide)
  | case7 _ _ _ _ _ _ h => exact eq_of_beq h ▸ hletter 't' '\t' (by decide)
  | case8 _ _ _ _ _ _ _ h =>
    have hunit := codeUnit_control.1 c.toNat h
    exact ⟨.unit _ _ hunit, rfl, Piece.standsFor_unit hunit (by omega)⟩
  | case9 _ _ _ _ _ _ _ hlow h =>
    have hunit := codeUnit_control.2 c.toNat h (Nat.not_lt.1 hlow)
    exact ⟨.unit _ _ hunit, rfl, Piece.standsFor_unit hunit h⟩
  | case10 hquote hslash _ _ _ _ _ _ h =>
    have hplain : Plain c := ⟨by simpa using hquote, by simpa using hslash, Nat.not_lt.1 h⟩
    exact ⟨.plain c hplain, rfl, text_plain hplain⟩

/-- The parts of a string that is read as a text, whatever follows it. -/
def Spell (pieces : List Piece) (s : String) : Prop :=
  ∀ rest, Lexeme.text (quotedChars pieces ++ '"' :: rest) = .ok (s.toList, rest)

/-- A text is printed as a string that is read as the text. -/
theorem exists_spell (s : String) :
    ∃ pieces, (Literal.string pieces).chars = writeText s ∧ Spell pieces s := by
  suffices h : ∀ cs : List Char, ∃ pieces, quotedChars pieces = cs.flatMap escapeText ∧
      ∀ rest, Lexeme.text (quotedChars pieces ++ '"' :: rest) = .ok (cs, rest) by
    obtain ⟨pieces, hchars, hspell⟩ := h s.toList
    refine ⟨pieces, ?_, hspell⟩
    rw [Literal.chars, hchars]
    rfl
  intro cs
  induction cs with
  | nil => exact ⟨[], rfl, fun rest => text_quote rest⟩
  | cons c cs ih =>
    obtain ⟨piece, hpiece, hstands⟩ := exists_piece c
    obtain ⟨pieces, hpieces, hspell⟩ := ih
    refine ⟨piece :: pieces, ?_, fun rest => ?_⟩
    · rw [List.flatMap_cons, ← hpiece, ← hpieces]
      rfl
    · rw [quotedChars_cons, hstands, hspell]
      rfl

/-- A string that spells a text is one token, with the text for its value. -/
theorem Spell.kind_eq {pieces : List Piece} {s : String} (h : Spell pieces s) :
    (Literal.string pieces).kind = .scalar (.text s) := by
  have hread : (Literal.string pieces).IsRead true (.ok (.text (String.ofList s.toList))) :=
    Literal.isRead_string_of_reads (v := .ok s.toList) h
  rw [hread.kind_eq, String.ofList_toList]
  rfl

/-! ## Layout -/

section

variable {symbols more : List Symbol} {g cs ds : List Char}

/-- Texts that spell symbols follow each other. -/
theorem Spaced.append (h : Spaced (fun _ => Blank) symbols cs)
    (hmore : Spaced (fun _ => Blank) more ds) :
    Spaced (fun _ => Blank) (symbols ++ more) (cs ++ ds) := by
  induction h with
  | nil hg => exact hmore.blanks hg
  | cons hg _ ih =>
    rw [List.append_assoc]
    exact .cons hg ih

/-- A symbol spells itself. -/
theorem Spaced.symbol (s : Symbol) : Spaced (fun _ => Blank) [s] s.chars := by
  have h : Spaced (fun _ => Blank) [s] ([] ++ s.chars ++ []) := .cons nofun (.nil nofun)
  rwa [List.nil_append, List.append_nil] at h

end

/-- A line end with its indentation is blank. -/
theorem blank_newLine (level : Nat) : Blank (Value.newLine level) := by
  refine List.forall_mem_cons.2 ⟨rfl, fun c hc => ?_⟩
  rw [List.eq_of_mem_replicate hc]
  rfl

/-- A document whose symbols a value is printed with, inside of however many containers. -/
def Tree.Lays (d : Tree) (v : Value) : Prop :=
  ∀ level, Spaced (fun _ => Blank) (d.symbols false) (v.writePretty level)

/-- A field whose symbols a name and a value are printed with. -/
def Tree.LaysField (d : List Piece × Tree) (e : String × Value) : Prop :=
  (Literal.string d.1).chars = writeText e.1 ∧ d.2.Lays e.2

namespace Tree.Lays

/-- A truth value is printed with its word. -/
theorem bool : ∀ b, (Tree.literal (.bool b)).Lays (.bool b)
  | true => fun _ => Spaced.symbol (.literal (.bool true))
  | false => fun _ => Spaced.symbol (.literal (.bool false))

/-- A text is printed with a string that is written for it. -/
theorem text {pieces : List Piece} {s : String}
    (h : (Literal.string pieces).chars = writeText s) :
    (Tree.literal (.string pieces)).Lays (.text s) := fun _ => by
  rw [Value.writePretty, ← h]
  exact Spaced.symbol (.literal (.string pieces))

/-- Symbols between brackets, the closing one on a line of its own. -/
theorem spaced_container (opens closes : Symbol) {symbols : List Symbol} {cs : List Char}
    (h : Spaced (fun _ => Blank) symbols cs) (level : Nat) :
    Spaced (fun _ => Blank) (opens :: symbols ++ [closes])
      (opens.chars ++ cs ++ (Value.newLine level ++ closes.chars)) :=
  ((Spaced.symbol opens).append h).append ((Spaced.symbol closes).blanks (blank_newLine level))

section

variable {ds : List Tree} {vs : List Value}

/-- Printed items have the symbols of the items, with a line end before each item. -/
theorem spaced_items (h : List.Forall₂ Lays ds vs) (hne : vs ≠ []) (level : Nat) :
    Spaced (fun _ => Blank) (itemSymbols false ds) (Value.writeItemsPretty level vs) := by
  induction h with
  | nil => exact absurd rfl hne
  | @cons d v ds vs hd hrest ih =>
    have hfirst := (hd level).blanks (blank_newLine level)
    cases hrest with
    | nil => rwa [itemSymbols, moreItems, List.append_nil]
    | cons _ _ => exact hfirst.append ((Spaced.symbol .comma).append (ih nofun))

/-- A list is printed with the symbols of its items. -/
theorem list (h : List.Forall₂ Lays ds vs) : (Tree.list ds false).Lays (.list vs) := fun level => by
  rw [symbols, extraSymbols_strict, List.append_nil]
  cases vs with
  | nil =>
    cases h
    exact (Spaced.symbol .openList).append (Spaced.symbol .closeList)
  | cons v vs =>
    have hitems := spaced_items h nofun (level + 1)
    rw [Value.writePretty, List.append_assoc]
    · exact spaced_container .openList .closeList hitems level
    · nofun

end

section

variable {ds : List (List Piece × Tree)} {es : List (String × Value)}

/-- Printed fields have the symbols of the fields, with a line end before each field. -/
theorem spaced_fields (h : List.Forall₂ LaysField ds es) (hne : es ≠ []) (level : Nat) :
    Spaced (fun _ => Blank) (fieldSymbols false ds) (Value.writeFieldsPretty level es) := by
  induction h with
  | nil => exact absurd rfl hne
  | @cons d e ds es hd hrest ih =>
    obtain ⟨name, d⟩ := d
    obtain ⟨n, v⟩ := e
    obtain ⟨hname, hd⟩ : (Literal.string name).chars = writeText n ∧ d.Lays v := hd
    have hblank : Blank [' '] := List.forall_mem_singleton.2 rfl
    have hfirst : Spaced (fun _ => Blank) (.literal (.string name) :: .colon :: d.symbols false)
        (Value.newLine level ++ writeText n ++ (':' :: ' ' :: v.writePretty level)) :=
      hname ▸ ((Spaced.symbol (.literal (.string name))).blanks (blank_newLine level)).append
        ((Spaced.symbol .colon).append ((hd level).blanks hblank))
    cases hrest with
    | nil => rwa [fieldSymbols, moreFields, List.append_nil]
    | cons _ _ => exact hfirst.append ((Spaced.symbol .comma).append (ih nofun))

/-- A table is printed with the symbols of its fields. -/
theorem table (h : List.Forall₂ LaysField ds es) : (Tree.table ds false).Lays (.table es) :=
    fun level => by
  rw [symbols, extraSymbols_strict, List.append_nil]
  cases es with
  | nil =>
    cases h
    exact (Spaced.symbol .openTable).append (Spaced.symbol .closeTable)
  | cons e es =>
    have hfields := spaced_fields h nofun (level + 1)
    rw [Value.writePretty, List.append_assoc]
    · exact spaced_container .openTable .closeTable hfields level
    · nofun

end

/-- A printed document is a strict text. -/
theorem strict_pretty {d : Tree} {v : Value} (h : d.Lays v) : d.Strict v.pretty := by
  rw [Strict, Value.pretty, String.toList_ofList]
  exact h 0

end Tree.Lays

end Stencil.Json
