import Stencil.Proofs.Template.Grammar

/-!
# Literals and what they decode to

Between the quotes of a literal stand items, each of which spells some octets: a character, or a
backslash with an escape. A text that starts with a quote is read exactly if it starts with a
literal whose items spell the octets of a text, and it is read as that text.

So how the octets of a text are divided among the items makes no difference. Every text has a
literal, and so has every way to escape its octets one by one.
-/

namespace Stencil.Template

open Text

namespace Literal

/-! ## Items -/

/-- An item between the quotes of a literal, and the octets that it spells. -/
inductive Item : List Char → List UInt8 → Prop
  | char {c} : c ≠ '"' → c ≠ '\\' → c ≠ '\n' → Item [c] (String.utf8EncodeChar c)
  | escape {es bs} : Escape es bs → Item ('\\' :: es) bs

/-- A literal from its opening to its closing quote, and the text that it stands for. -/
def IsLiteral (literal : List Char) (value : String) : Prop :=
  ∃ items : List (List Char × List UInt8), (∀ i ∈ items, Item i.1 i.2) ∧
    literal = '"' :: items.flatMap (·.1) ++ ['"'] ∧
    items.flatMap (·.2) = Utf8.encode value.toList

/-- An item may stand before what spells octets. -/
theorem Spells.item {es cs : List Char} {bs bs' : List UInt8} (hi : Item es bs)
    (h : Spells cs bs') : Spells (es ++ cs) (bs ++ bs') := by
  cases hi with
  | char hq hs hn => exact .char hq hs hn h
  | escape he => exact .escape he h

/-- What stands between the quotes of a literal is one item after the other. -/
theorem spells_iff_items {body : List Char} {bs : List UInt8} :
    Spells body bs ↔ ∃ items : List (List Char × List UInt8), (∀ i ∈ items, Item i.1 i.2) ∧
      body = items.flatMap (·.1) ∧ items.flatMap (·.2) = bs := by
  constructor
  · intro h
    induction h with
    | nil => exact ⟨[], fun _ hi => absurd hi List.not_mem_nil, rfl, rfl⟩
    | @char c cs bs hq hs hn _ ih =>
      obtain ⟨items, hall, rfl, rfl⟩ := ih
      exact ⟨([c], _) :: items, List.forall_mem_cons.2 ⟨.char hq hs hn, hall⟩, rfl, rfl⟩
    | @escape es cs bs bs' he _ ih =>
      obtain ⟨items, hall, rfl, rfl⟩ := ih
      exact ⟨('\\' :: es, bs) :: items, List.forall_mem_cons.2 ⟨.escape he, hall⟩, rfl, rfl⟩
  · rintro ⟨items, hall, rfl, rfl⟩
    induction items with
    | nil => exact .nil
    | cons i items ih =>
      obtain ⟨hi, hall⟩ := List.forall_mem_cons.1 hall
      exact (ih hall).item hi

/-- A literal is quotes around what spells the octets of its text. -/
theorem isLiteral_iff_spells {literal : List Char} {value : String} :
    IsLiteral literal value ↔
      ∃ body, literal = '"' :: body ++ ['"'] ∧ Spells body (Utf8.encode value.toList) := by
  constructor
  · rintro ⟨items, hall, rfl, hbs⟩
    exact ⟨_, rfl, spells_iff_items.2 ⟨items, hall, rfl, hbs⟩⟩
  · rintro ⟨body, rfl, h⟩
    obtain ⟨items, hall, rfl, hbs⟩ := spells_iff_items.1 h
    exact ⟨items, hall, rfl, hbs⟩

/-! ## Reading from the opening quote on -/

/-- How many octets a text takes up. -/
def octetCount (cs : List Char) : Nat := (Utf8.encode cs).length

/-- Texts that follow each other take up the octets of both. -/
theorem octetCount_append (cs ds : List Char) :
    octetCount (cs ++ ds) = octetCount cs + octetCount ds := by
  rw [octetCount, Utf8.encode_append, List.length_append, octetCount, octetCount]

/-- Reads the literal that a text starts with: the text that it stands for, and how many octets it
takes up with its quotes. -/
def unquote (cs : List Char) : Except SyntaxFault (String × Nat) :=
  (read cs.tail).map fun r => (r.1, octetCount cs - octetCount r.2)

/-- The text after an opening quote is read up to the end of the literal. -/
theorem read_eq_ok_iff_isLiteral {after rest : List Char} {value : String} :
    read after = .ok (value, rest) ↔
      ∃ literal, '"' :: after = literal ++ rest ∧ IsLiteral literal value := by
  simp only [read_eq_ok_iff, isLiteral_iff_spells]
  constructor
  · rintro ⟨body, rfl, h⟩
    exact ⟨'"' :: body ++ ['"'], by simp, body, rfl, h⟩
  · rintro ⟨_, hcs, body, rfl, h⟩
    refine ⟨body, ?_, h⟩
    rw [List.append_assoc, List.cons_append, List.singleton_append, List.cons.injEq] at hcs
    exact hcs.2

/-- A text that starts with a quote is read as a value of some length just if it starts with a
literal of that length for the value. -/
theorem unquote_eq_ok_iff {after : List Char} {value : String} {len : Nat} :
    unquote ('"' :: after) = .ok (value, len) ↔
      ∃ literal rest, '"' :: after = literal ++ rest ∧ IsLiteral literal value ∧
        octetCount literal = len := by
  have hlength {literal rest : List Char} (hcs : '"' :: after = literal ++ rest) :
      octetCount ('"' :: after) - octetCount rest = octetCount literal := by
    rw [hcs, octetCount_append, Nat.add_sub_cancel]
  rw [unquote, List.tail_cons, map_eq_ok_iff]
  constructor
  · rintro ⟨⟨value', rest⟩, hread, h⟩
    obtain ⟨rfl, rfl⟩ := Prod.mk.inj h
    obtain ⟨literal, hcs, hliteral⟩ := read_eq_ok_iff_isLiteral.1 hread
    exact ⟨literal, rest, hcs, hliteral, (hlength hcs).symm⟩
  · rintro ⟨literal, rest, hcs, hliteral, rfl⟩
    refine ⟨(value, rest), read_eq_ok_iff_isLiteral.2 ⟨literal, hcs, hliteral⟩, ?_⟩
    rw [hlength hcs]

/-! ## Faults -/

/-- What can be wrong with a literal: it does not end on its line, one of its escapes is none, or
its octets are not those of a text. -/
inductive IsFault : SyntaxFault → Prop
  | unterminated : IsFault .unterminatedText
  | badEscape {letter digits} : IsFault (.badEscape letter digits)
  | unknownEscape {letter} : IsFault (.unknownEscape letter)
  | notUtf8 : IsFault .notUtf8

/-- What can be wrong with a number in a literal is a fault of a literal. -/
theorem isFault_of_numeric {letter : Char} {isDigit : Char → Bool} {width : Nat}
    {octets? : List Char → Option (List UInt8)} {cs : List Char} {fault : SyntaxFault}
    (h : numeric letter isDigit width octets? cs = .error fault) : IsFault fault := by
  unfold numeric at h
  split at h
  · cases h
    exact .badEscape
  · split at h <;> cases h
    exact .badEscape

/-- What can be wrong with an escape is a fault of a literal. -/
theorem isFault_of_escape {cs : List Char} {fault : SyntaxFault}
    (h : escape cs = .error fault) : IsFault fault := by
  unfold escape at h
  split at h
  · cases h
    exact .unterminated
  · split at h
    · cases h
    · -- The digits of an escape may be wrong in four ways of writing it.
      repeat' split at h
      iterate 4 exact isFault_of_numeric h
      cases h
      exact .unknownEscape

/-- What can be wrong between the quotes is a fault of a literal. -/
theorem isFault_of_octets {cs : List Char} {fault : SyntaxFault}
    (h : octets cs = .error fault) : IsFault fault := by
  have inside {ε α β : Type} {r : Except ε α} {f : α → β} {e : ε} (h : r.map f = .error e) :
      r = .error e := by
    cases r with
    | error e' =>
      cases h
      rfl
    | ok a => cases h
  fun_induction octets cs with
  | case1 =>
    cases h
    exact .unterminated
  | case2 => cases h
  | case3 =>
    cases h
    exact .unterminated
  | case4 c rest _ _ _ fault' he =>
    cases h
    exact isFault_of_escape he
  | case5 c rest _ _ _ bs after he ih => exact ih (inside h)
  | case6 c rest _ _ _ ih => exact ih (inside h)

/-- What can be wrong with a literal is one of its faults. -/
theorem isFault_of_read {cs : List Char} {fault : SyntaxFault} (h : read cs = .error fault) :
    IsFault fault := by
  unfold read at h
  split at h
  · rename_i he
    cases h
    exact isFault_of_octets he
  · split at h <;> cases h
    exact .notUtf8

/-- A fault of a literal is that of every template with an action that starts with it. -/
theorem parse_of_read_error {text after : List Char} {fault : SyntaxFault} (ht : Leads text)
    (h : read after = .error fault) :
    parse (String.ofList (text ++ '{' :: '{' :: '"' :: after)) =
      .error (.malformed (1 + lineEnds text) fault) := by
  have hword : readWord '"' after = .error fault := by
    rw [readWord, if_pos (beq_self_eq_true '"'), h]
    rfl
  -- The fault is passed on by each reader in turn.
  have hwords : readWords true ('"' :: after) = .error fault := by
    rw [readWords]
    · rw [if_neg (by simp), if_neg (by decide), if_neg (by decide)]
      split
      · rename_i he
        rw [hword] at he
        exact congrArg _ (Except.error.inj he).symm
      · rename_i hok
        rw [hword] at hok
        cases hok
    · rintro rest hc
      exact absurd hc (by decide)
  have haction : readAction (1 + lineEnds text) ('"' :: after) = .error fault := by
    rw [readAction]
    · rw [if_neg (by simp [opensComment]), readCommand, hwords]
    · rintro c rest hc
      exact absurd (List.cons.inj hc).1 (by decide)
  rw [parse, String.toList_ofList, parseFrom_of_leads ht, haction]

/-! ## Texts and their literals -/

/-- A character as it stands in a literal: after a backslash if it has a meaning there. -/
def written (c : Char) : List Char :=
  if c = '"' then ['\\', '"']
  else if c = '\\' then ['\\', '\\']
  else if c = '\n' then ['\\', 'n']
  else [c]

/-- A written character spells its octets. -/
theorem item_written (c : Char) : Item (written c) (String.utf8EncodeChar c) := by
  unfold written
  split
  · rename_i hc
    subst hc
    exact .escape (.letter (by decide))
  · rename_i hq
    split
    · rename_i hc
      subst hc
      exact .escape (.letter (by decide))
    · rename_i hs
      split
      · rename_i hc
        subst hc
        exact .escape (.letter (by decide))
      · rename_i hn
        exact .char hq hs hn

/-- Every text has a literal. -/
theorem isLiteral_written (value : String) :
    IsLiteral ('"' :: value.toList.flatMap written ++ ['"']) value := by
  refine ⟨value.toList.map fun c => (written c, String.utf8EncodeChar c), ?_, ?_, ?_⟩
  · intro i hi
    obtain ⟨c, -, rfl⟩ := List.mem_map.1 hi
    exact item_written c
  · rw [List.flatMap_map]
  · rw [List.flatMap_map]
    rfl

/-- The three octal digits of an octet. -/
def octalTriple (b : UInt8) : List Char :=
  [Nat.digitChar (b.toNat / 64), Nat.digitChar (b.toNat / 8 % 8), Nat.digitChar (b.toNat % 8)]

theorem isDigit_digitChar {base v : Nat} (h : v < base) : IsDigit base (Nat.digitChar v) v :=
  ⟨h, .inl rfl⟩

/-- Every octet is spelled by its two hexadecimal digits. -/
theorem item_hexPair (b : UInt8) : Item ('\\' :: 'x' :: hexPair b) [b] := by
  have hb := b.toNat_lt
  have hn : Numeral 16 (hexPair b) b.toNat := by
    refine ⟨[b.toNat / 16, b.toNat % 16], ?_, ?_⟩
    · exact .cons (isDigit_digitChar (by omega)) (.cons (isDigit_digitChar (by omega)) .nil)
    · simp only [positional, List.foldl_cons, List.foldl_nil]
      omega
  have he := Escape.hex (rfl : (hexPair b).length = 2) hn
  rw [UInt8.ofNat_toNat] at he
  exact .escape he

/-- Every octet is spelled by its three octal digits. -/
theorem item_octalTriple (b : UInt8) : Item ('\\' :: octalTriple b) [b] := by
  have hb := b.toNat_lt
  have hn : Numeral 8 (octalTriple b) b.toNat := by
    refine ⟨[b.toNat / 64, b.toNat / 8 % 8, b.toNat % 8], ?_, ?_⟩
    · exact .cons (isDigit_digitChar (by omega)) (.cons (isDigit_digitChar (by omega))
        (.cons (isDigit_digitChar (by omega)) .nil))
    · simp only [positional, List.foldl_cons, List.foldl_nil]
      omega
  have he := Escape.octal (rfl : (octalTriple b).length = 3) hn hb
  rw [UInt8.ofNat_toNat] at he
  exact .escape he

/-- Any spellings of the octets of a text, one after the other, make a literal for it. -/
theorem isLiteral_of_octets {value : String} {spellings : List (List Char)}
    (h : List.Forall₂ (fun b es => Item es [b]) (Utf8.encode value.toList) spellings) :
    IsLiteral ('"' :: spellings.flatten ++ ['"']) value := by
  refine isLiteral_iff_spells.2 ⟨_, rfl, ?_⟩
  generalize Utf8.encode value.toList = bs at h
  induction h with
  | nil => exact .nil
  | cons hi _ ih => exact ih.item hi

/-- Literals decode exactly. A text that starts with a quote is read as a value of some length just
if it starts with a literal of this length for the value; any other one is an error of the template.
Every text has a literal. The octets of a text may be spelled one by one, each in hexadecimal or in
octal digits or in any other way, and that decodes to the text too. -/
theorem decodes_exactly :
    (∀ after value len, unquote ('"' :: after) = .ok (value, len) ↔
      ∃ literal rest, '"' :: after = literal ++ rest ∧ IsLiteral literal value ∧
        octetCount literal = len) ∧
    (∀ after,
      (∀ literal rest, '"' :: after = literal ++ rest → ∀ value, ¬ IsLiteral literal value) →
      ∃ fault, IsFault fault ∧ unquote ('"' :: after) = .error fault ∧
        ∀ text, Leads text → parse (String.ofList (text ++ '{' :: '{' :: '"' :: after)) =
          .error (.malformed (1 + lineEnds text) fault)) ∧
    (∀ value, ∃ literal, IsLiteral literal value) ∧
    (∀ b, Item ('\\' :: 'x' :: hexPair b) [b] ∧ Item ('\\' :: octalTriple b) [b]) ∧
    ∀ value spellings,
      List.Forall₂ (fun b es => Item es [b]) (Utf8.encode value.toList) spellings → ∀ rest,
        unquote ('"' :: spellings.flatten ++ ['"'] ++ rest) =
          .ok (value, octetCount ('"' :: spellings.flatten ++ ['"'])) := by
  refine ⟨fun _ _ _ => unquote_eq_ok_iff, fun after hnone => ?_,
    fun value => ⟨_, isLiteral_written value⟩, fun b => ⟨item_hexPair b, item_octalTriple b⟩,
    fun value spellings h rest => ?_⟩
  -- What is read starts with a literal for it, so a text without one is not read.
  · cases hread : read after with
    | error fault =>
      refine ⟨fault, isFault_of_read hread, ?_, fun text ht => parse_of_read_error ht hread⟩
      rw [unquote, List.tail_cons, hread]
      rfl
    | ok r =>
      obtain ⟨literal, hcs, hliteral⟩ := read_eq_ok_iff_isLiteral.1 hread
      exact absurd hliteral (hnone literal r.2 hcs r.1)
  · exact unquote_eq_ok_iff.2 ⟨_, rest, rfl, isLiteral_of_octets h, rfl⟩

/-- A character of two octets, the first in hexadecimal and the second in octal digits. -/
theorem decodes_exactly_split :
    List.Forall₂ (fun b es => Item es [b]) (Utf8.encode "é".toList)
        ["\\xc3".toList, "\\251".toList] ∧
      unquote "\"\\xc3\\251\" x".toList = .ok ("é", 10) := by
  have hspelled : List.Forall₂ (fun b es => Item es [b]) (Utf8.encode "é".toList)
      ["\\xc3".toList, "\\251".toList] :=
    .cons (item_hexPair 0xC3) (.cons (item_octalTriple 0xA9) .nil)
  exact ⟨hspelled, decodes_exactly.2.2.2.2 "é" _ hspelled [' ', 'x']⟩

end Literal

end Stencil.Template
