import Stencil.Proofs.Template.Grammar
import Stencil.Proofs.Url.Percent
import Stencil.Upload.Container

/-!
# Addresses without opening braces

What a key adds to the address of a container is written without braces. So the address of a file
has opening braces only if that of the container has.
-/

namespace Stencil

open Url Template

/-! ## Parts of a text -/

namespace Template

/-- Opening braces stand in one of two parts of a text if the second part starts with no brace. -/
theorem plain_append {cs ds : List Char} (h : ds.head? ≠ some '{') :
    Plain (cs ++ ds) ↔ Plain cs ∧ Plain ds := by
  induction cs with
  | nil => simp [Plain]
  | cons c cs ih =>
    have hhead : (cs ++ ds).head? = some '{' ↔ cs.head? = some '{' := by
      cases cs with
      | nil => simpa using h
      | cons d cs => simp
    rw [List.cons_append, plain_cons, plain_cons, hhead, ih, and_assoc]

theorem plain_of_not_mem {cs : List Char} (h : '{' ∉ cs) : Plain cs :=
  fun hin => h (hin.subset List.mem_cons_self)

end Template

/-! ## Paths -/

namespace Url

/-- Segments without opening braces. -/
def Clear (segments : List (List Char)) : Prop := ∀ part ∈ segments, Plain part

theorem clear_cons {part : List Char} {rest : List (List Char)} :
    Clear (part :: rest) ↔ Plain part ∧ Clear rest := List.forall_mem_cons

theorem Clear.dropLast {segments : List (List Char)} (h : Clear segments) :
    Clear segments.dropLast := fun part hm => h part ((List.dropLast_sublist segments).subset hm)

/-- Clear segments stay so without an empty one at the end. -/
theorem Clear.popEmpty {segments : List (List Char)} (h : Clear segments) :
    Clear (popEmpty segments) := by
  rw [Url.popEmpty]
  split_ifs
  · exact h.dropLast
  · exact h

/-- A plain segment may be entered from clear ones. -/
theorem Clear.enter {before : List (List Char)} {segment : List Char} (h : Clear before)
    (hs : Plain segment) : Clear (enter before segment) := by
  rw [Url.enter]
  split_ifs
  · rw [above]
    split
    · exact fun _ hm => absurd hm List.not_mem_nil
    · split_ifs
      · exact h
      · exact h.dropLast
  · exact h
  · exact List.forall_mem_append.2 ⟨h, clear_cons.2 ⟨hs, fun _ hm => absurd hm List.not_mem_nil⟩⟩

/-- The empty segment at the end of a directory is clear. -/
theorem clear_closing (last : Option (List Char)) : Clear (closing last) := by
  intro part hm
  unfold closing at hm
  split at hm
  · split_ifs at hm
    · rw [List.mem_singleton.1 hm]
      exact plain_of_not_mem List.not_mem_nil
    · cases hm
  · cases hm

/-- Clear segments may be placed after clear ones. -/
theorem Clear.place {before segments : List (List Char)} (h : Clear before)
    (hs : Clear segments) : Clear (place before segments) := by
  have hall : Clear (segments ++ closing segments.getLast?) :=
    List.forall_mem_append.2 ⟨hs, clear_closing _⟩
  rw [Url.place]
  generalize segments ++ closing segments.getLast? = parts at hall
  induction parts generalizing before with
  | nil => exact h
  | cons part rest ih =>
    obtain ⟨hpart, hrest⟩ := clear_cons.1 hall
    exact ih (h.enter hpart) hrest

/-- A text becomes a segment without braces. -/
theorem Clear.pushSegment {segments : List (List Char)} (h : Clear segments) (text : String) :
    Clear (pushSegment segments text) := by
  have hsegment : Plain (percentEncode inSpecialSegment (text.toList.filter (!isLeftOut ·))) :=
    plain_of_not_mem (not_mem_percentEncode rfl (by decide) (by decide) _)
  have hone := clear_cons.2 ⟨hsegment, fun _ hm => absurd hm List.not_mem_nil⟩
  rw [Url.pushSegment]
  split_ifs
  · exact h
  · exact Clear.place (fun _ hm => absurd hm List.not_mem_nil) hone
  · exact h.place hone

/-! ## Addresses -/

/-- A path of segments does not start with a brace. -/
theorem head?_text_segments (parts : List (List Char)) :
    (Path.segments parts).text.head? ≠ some '{' := by
  cases parts <;> simp [Path.text]

/-- A part behind its mark does not start with a brace. -/
theorem head?_marked {mark : Char} (h : mark ≠ '{') (part : Option (List Char)) :
    (marked mark part).head? ≠ some '{' := by
  cases part <;> simp [marked, h]

/-- A path is plain if its segments are clear. -/
theorem plain_text_segments {parts : List (List Char)} :
    Plain (Path.segments parts).text ↔ Clear parts := by
  induction parts with
  | nil => simp [Plain, Path.text, Clear]
  | cons part rest ih =>
    have hslash : Plain ('/' :: part) ↔ Plain part := by simp [plain_cons]
    have htext : (Path.segments (part :: rest)).text =
        ('/' :: part) ++ (Path.segments rest).text := rfl
    rw [htext, plain_append (head?_text_segments rest), ih, hslash, clear_cons]

/-- An address whose path has segments is free of opening braces if all its parts are. -/
theorem plain_chars {u : Url} {parts : List (List Char)} (hpath : u.path = .segments parts) :
    Plain u.chars ↔ Plain u.scheme ∧ (∀ a ∈ u.authority, Plain a.text) ∧ Clear parts ∧
      Plain (marked '?' u.query) ∧ Plain (marked '#' u.fragment) := by
  have hnone (p : Prop) [Decidable p] : Plain (if p then ['/', '.'] else []) := by
    split <;> exact plain_of_not_mem (by decide)
  unfold chars
  rw [plain_append (head?_marked (by decide) _), plain_append (head?_marked (by decide) _), hpath,
    plain_append (head?_text_segments parts), plain_append (by simp), plain_text_segments]
  cases u.authority with
  | none => simp [plain_cons, hnone, and_assoc]
  | some a => simp [plain_cons, and_assoc]

end Url

/-- The address of a key has opening braces only if that of the container has. -/
theorem Upload.Container.plain_urlOf {c : Container} {key : String} {url : Url}
    (h : c.urlOf key = .ok url) (hc : Plain c.endpoint.chars) : Plain url.chars := by
  unfold urlOf at h
  cases hp : c.endpoint.path with
  | plain cs =>
    rw [hp] at h
    cases h
  | segments before =>
    rw [hp] at h
    obtain rfl := Except.ok.inj h
    obtain ⟨hscheme, hauthority, hbefore, hquery, hfragment⟩ := (plain_chars hp).1 hc
    refine (plain_chars rfl).2 ⟨hscheme, hauthority, ?_, hquery, hfragment⟩
    have hstart := hbefore.popEmpty
    rw [keySegments]
    generalize popEmpty before = segments at hstart
    induction c.name :: keyParts key generalizing segments with
    | nil => exact hstart
    | cons text rest ih => exact ih _ (hstart.pushSegment text)

end Stencil
