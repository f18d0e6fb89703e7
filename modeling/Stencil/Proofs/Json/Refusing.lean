import Stencil.Command.Run
import Stencil.Proofs.Json.Accepting
import Stencil.Proofs.Json.Restoring

/-!
# Nothing else is read

The reader of strict texts takes documents only, and a text of which a strict one is left was a
tolerated one. So settings, and documents whose texts are to be resolved, are read from tolerated
texts only, and whatever else a text has wrong with it is a failure: a second comma, a comma where
no bracket closes, a comment that hides what it should not. What is tolerated is more than what a
lenient text has, by a comma in an empty container and by a comment that is never closed.
-/

namespace Stencil.Json

/-- Settings, and documents whose texts are to be resolved, are read from tolerated texts of
documents only. Any other text is refused. -/
theorem exists_tolerated_of_read (text : String) :
    (∀ path c, Settings.Config.parse text .json path = .ok c → ∃ d : Tree, d.Tolerated text) ∧
    (∀ v, (Command.readDocument text : ExceptT Command.Failure Id Value) = pure v →
      ∃ d : Tree, d.Tolerated text) ∧
    ((¬ ∃ d : Tree, d.Tolerated text) →
      (∀ path, ∃ message,
        Settings.Config.parse text .json path = .error (.invalidFormat path message)) ∧
      ∃ message, (Command.readDocument text : ExceptT Command.Failure Id Value) =
        throw (.invalidDocument message)) := by
  -- Both readers strip the text first, and what they take of the rest is a strict document.
  have hread (shape : Shape) :
      (∃ d : Tree, d.Tolerated text) ∨ ∃ fault, read shape (stripComments text) = .error fault := by
    cases h : read shape (stripComments text) with
    | error fault => exact .inr ⟨fault, rfl⟩
    | ok v =>
      obtain ⟨d, hstrict⟩ := exists_strict_of_read h
      exact .inl ⟨d, Tree.strict_stripComments_iff.1 hstrict⟩
  rcases hread Settings.Config.shape with hd | ⟨fault, hsettings⟩
  · exact ⟨fun _ _ _ => hd, fun _ _ => hd, fun h => absurd hd h⟩
  rcases hread .any with hd | ⟨fault', hdocument⟩
  · exact ⟨fun _ _ _ => hd, fun _ _ => hd, fun h => absurd hd h⟩
  have hparse (path : String) : Settings.Config.parse text .json path =
      .error (.invalidFormat path fault.message) := by rw [Settings.Config.parse, hsettings]
  have hresolve : (Command.readDocument text : ExceptT Command.Failure Id Value) =
      throw (.invalidDocument fault'.message) := by rw [Command.readDocument, hdocument]
  refine ⟨fun path c h => ?_, fun v h => ?_, fun _ => ⟨fun path => ⟨_, hparse path⟩, _, hresolve⟩⟩
  · rw [hparse] at h
    cases h
  · rw [hresolve] at h
    cases h

/-! ## What is tolerated and not lenient -/

/-- What may be told to succeed does. -/
theorem exists_ok_of_toOption {α ε : Type} {x : Except ε α} (h : x.toOption.isSome = true) :
    ∃ a, x = .ok a := by
  cases x with
  | error e => cases h
  | ok a => exact ⟨a, rfl⟩

/-- That a document is read can be computed. -/
theorem exists_readDocument {text : String}
    (h : (read .any (stripComments text)).toOption.isSome = true) :
    ∃ v, (Command.readDocument text : ExceptT Command.Failure Id Value) = pure v := by
  obtain ⟨v, hv⟩ := exists_ok_of_toOption h
  refine ⟨v, ?_⟩
  rw [Command.readDocument, hv]

/-- No literal starts with a square bracket. -/
theorem Literal.ne_bracket {l : Literal} {c : Char} {tail : List Char}
    (h : l.chars = c :: tail) : c ≠ '[' ∧ c ≠ ']' := by
  obtain ⟨quoted, v, c', tail', hchars, -, hlexeme⟩ := l.exists_isRead
  obtain ⟨k, hk, hkind⟩ := hlexeme .start [] delimits_nil
  rw [h] at hchars
  obtain ⟨rfl, rfl⟩ := List.cons.inj hchars
  constructor
  · rintro rfl
    obtain rfl : Kind.openList = k := congrArg Prod.fst hk
    cases v <;> cases hkind
  · rintro rfl
    obtain rfl : Kind.closeList = k := congrArg Prod.fst hk
    cases v <;> cases hkind

/-- Only one symbol starts with an opening bracket. -/
theorem Symbol.eq_openList {s : Symbol} {tail : List Char} (h : s.chars = '[' :: tail) :
    s = .openList := by
  cases s with
  | literal l => exact absurd rfl (Literal.ne_bracket h).1
  | _ => first | rfl | cases h

/-- Only one symbol starts with a closing bracket. -/
theorem Symbol.eq_closeList {s : Symbol} {tail : List Char} (h : s.chars = ']' :: tail) :
    s = .closeList := by
  cases s with
  | literal l => exact absurd rfl (Literal.ne_bracket h).2
  | _ => first | rfl | cases h

section

variable {sep : (atEnd : Bool) → List Char → Prop} {symbols : List Symbol} {cs : List Char}

/-- A text that starts with an opening bracket spells that symbol first, where no gap may start with
one. -/
theorem Spaced.openList_front (hsep : ∀ atEnd g, ¬ sep atEnd ('[' :: g))
    (h : Spaced sep symbols ('[' :: cs)) :
    ∃ rest, symbols = .openList :: rest ∧ Spaced sep rest cs := by
  obtain ⟨s, rest, tail, cs', rfl, hs, rfl, hrest⟩ := h.exists_front hsep
  obtain rfl := Symbol.eq_openList hs
  obtain rfl : [] = tail := (List.cons.inj hs).2
  exact ⟨rest, rfl, hrest⟩

/-- A text that starts with a closing bracket spells that symbol first, where no gap may start with
one. -/
theorem Spaced.closeList_front (hsep : ∀ atEnd g, ¬ sep atEnd (']' :: g))
    (h : Spaced sep symbols (']' :: cs)) :
    ∃ rest, symbols = .closeList :: rest ∧ Spaced sep rest cs := by
  obtain ⟨s, rest, tail, cs', rfl, hs, rfl, hrest⟩ := h.exists_front hsep
  obtain rfl := Symbol.eq_closeList hs
  obtain rfl : [] = tail := (List.cons.inj hs).2
  exact ⟨rest, rfl, hrest⟩

/-- An empty list is spelled by its brackets only. -/
theorem Spaced.eq_brackets {g : List Char} (hg : Blank g)
    (h : Spaced (fun _ => Blank) symbols ('[' :: ']' :: g)) :
    symbols = [.openList, .closeList] := by
  obtain ⟨_, rfl, hclose⟩ := h.openList_front fun _ _ => not_blank_cons rfl
  obtain ⟨rest, rfl, hrest⟩ := hclose.closeList_front fun _ _ => not_blank_cons rfl
  rw [← List.append_nil g] at hrest
  obtain rfl : rest = [] := (hrest.of_blanks hg).eq_nil
  rfl

end

/-- A lenient text has no comma in an empty list. -/
theorem Tree.symbols_brackets {d : Tree} (h : d.symbols false = [.openList, .closeList]) :
    d.symbols true = [.openList, .closeList] := by
  cases d with
  | literal l => cases h
  | table fields extra => cases h
  | list items extra =>
    cases items with
    | nil => cases extra <;> rfl
    | cons d items =>
      obtain ⟨s, rest, hs, hcloses⟩ := d.exists_symbols_eq_cons false
      rw [symbols, itemSymbols, hs] at h
      cases (List.cons.inj (List.cons.inj h).2).1
      cases hcloses

/-- A gap starts with a blank or with a slash. -/
theorem Gap.front {atEnd : Bool} {c : Char} {g : List Char} (h : Gap atEnd (c :: g)) :
    Token.isBlank c = true ∨ c = '/' := by
  cases h with
  | blank hc _ => exact .inl hc
  | _ => exact .inr rfl

/-- An open comment is no gap. -/
theorem not_spaced_unclosed : ¬ Spaced Gap [] ['/', '*'] := by
  intro h
  generalize htext : ['/', '*'] = text at h
  cases h with
  | nil hg =>
    cases hg with
    | blank hc _ =>
      obtain rfl := (List.cons.inj htext).1
      cases hc
    | _ => simp at htext

/-- An opening bracket alone is no document. -/
theorem not_tolerated_open : ¬ ∃ d : Tree, d.Tolerated "[/*" := by
  rintro ⟨d, hd⟩
  have hstrip : stripComments "[/*" = String.ofList ['[', ' '] := by decide +kernel
  have hstrict := Tree.strict_stripComments_iff.2 hd
  rw [hstrip, Tree.Strict, String.toList_ofList] at hstrict
  obtain ⟨rest, hsymbols, hrest⟩ := hstrict.openList_front fun _ _ => not_blank_cons rfl
  obtain rfl : rest = [] := (hrest.of_blank rfl).eq_nil
  cases d with
  | literal l => cases hsymbols
  | list items extra => simp [Tree.symbols] at hsymbols
  | table fields extra => cases hsymbols

/-- A comma in an empty list and a comment that is not closed are tolerated, but the comment may not
hide the end of the list. -/
theorem exists_tolerated_of_read_bracket :
    (∃ d : Tree, d.Tolerated "\x7b\"hashNS\": \"a\", // b\n\x7d/*") ∧
    (∃ d : Tree, d.Tolerated "[,]/*") ∧
    ∃ message, Settings.Config.parse "[/*" .json "customazed.json" =
      .error (.invalidFormat "customazed.json" message) := by
  obtain ⟨c, hc⟩ : ∃ c, Settings.Config.parse "\x7b\"hashNS\": \"a\", // b\n\x7d/*" .json
      "customazed.json" = .ok c := exists_ok_of_toOption (by decide +kernel)
  obtain ⟨v, hv⟩ : ∃ v, (Command.readDocument "[,]/*" : ExceptT Command.Failure Id Value) =
      pure v := exists_readDocument (by decide +kernel)
  refine ⟨(exists_tolerated_of_read _).1 _ c hc, (exists_tolerated_of_read _).2.1 v hv, ?_⟩
  exact ((exists_tolerated_of_read _).2.2 not_tolerated_open).1 _

/-- The text of an empty list is spelled by its brackets, with gaps around them. -/
theorem Tree.Lenient.brackets {d : Tree} {text : String} (h : d.Lenient text) (g : List Char)
    (hg : Blank g) (hstrip : Json.stripComments text = String.ofList ('[' :: ']' :: g)) :
    Spaced Gap [.openList, .closeList] text.toList := by
  have hstrict := h.stripComments
  rw [hstrip, Tree.Strict, String.toList_ofList] at hstrict
  rw [← d.symbols_brackets (hstrict.eq_brackets hg)]
  exact h

/-- A comma is read where there is no item before it, and a comment that is never closed. -/
theorem read_not_lenient :
    ((∃ c, Settings.Config.parse "[,]" .json "customazed.json" = .ok c) ∧
      (∃ v, (Command.readDocument "[,]" : ExceptT Command.Failure Id Value) = pure v) ∧
      ¬ ∃ d : Tree, d.Lenient "[,]") ∧
    (∃ c, Settings.Config.parse "[]/*" .json "customazed.json" = .ok c) ∧
    (∃ v, (Command.readDocument "[]/*" : ExceptT Command.Failure Id Value) = pure v) ∧
    ¬ ∃ d : Tree, d.Lenient "[]/*" := by
  -- A gap starts with a blank or a slash, so none stands before any other character.
  have hgap {c : Char} (hc : Token.isBlank c = false ∧ c ≠ '/') (atEnd : Bool) (g : List Char) :
      ¬ Gap atEnd (c :: g) := by
    intro h
    rcases h.front with hblank | hslash
    · rw [hc.1] at hblank
      cases hblank
    · exact hc.2 hslash
  refine ⟨⟨exists_ok_of_toOption (by decide +kernel), exists_readDocument (by decide +kernel), ?_⟩,
    exists_ok_of_toOption (by decide +kernel), exists_readDocument (by decide +kernel), ?_⟩
  · rintro ⟨d, hd⟩
    have hspaced := hd.brackets [] nofun (by decide +kernel)
    obtain ⟨rest, heq, hrest⟩ := Spaced.openList_front (hgap (by decide)) hspaced
    obtain rfl := (List.cons.inj heq).2
    obtain ⟨s, rest, tail, cs, heq, hs, -⟩ := Spaced.exists_front (hgap (by decide)) hrest
    obtain rfl := (List.cons.inj heq).1
    cases hs
  · rintro ⟨d, hd⟩
    have hspaced := hd.brackets [' '] (List.forall_mem_singleton.2 rfl) (by decide +kernel)
    obtain ⟨rest, heq, hrest⟩ := Spaced.openList_front (hgap (by decide)) hspaced
    obtain rfl := (List.cons.inj heq).2
    obtain ⟨rest, heq, hrest⟩ := Spaced.closeList_front (hgap (by decide)) hrest
    obtain rfl := (List.cons.inj heq).2
    exact not_spaced_unclosed hrest

end Stencil.Json
