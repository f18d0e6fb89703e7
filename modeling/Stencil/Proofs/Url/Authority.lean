import Stencil.Proofs.Text.Blank
import Stencil.Proofs.Url.Domain
import Stencil.Proofs.Url.Percent
import Stencil.Url.Parser

/-!
# Authorities

An authority ends where a slash, a question mark or a hash stands, so nothing that follows has an
effect on it. Up to there its host stands at the end, after any names, passwords and before a port:
an authority that ends in plain labels has a host that ends in them.
-/

namespace Stencil.Url

open Text

/-- Plain labels that hold no mark of an authority, the last of which is no number. -/
structure HostEnding (rest : List Char) : Prop where
  plain : Domain.Plain rest
  marks : ∀ c ∈ '.' :: rest, c ∉ ['@', ':', ']', '%'] ∧ endsAuthority true c = false
  number : ∃ before last, '.' :: rest = before ++ '.' :: last ∧ last ≠ [] ∧ '.' ∉ last ∧
    (last.all isDigit || (part? last).isSome) = false

variable {scheme body rest cs : List Char}

/-! ## Hosts -/

/-- The last label decides whether a host ends in a number. -/
theorem endsInNumber_append {last : List Char} (hne : last ≠ []) (hperiod : '.' ∉ last)
    (front : List Char) : endsInNumber (front ++ '.' :: last) =
      (last.all isDigit || (part? last).isSome) := by
  have hparts : split '.' (front ++ '.' :: last) = split '.' front ++ [last] := by
    rw [split_append_cons, split_of_not_mem hperiod]
  have hhost : hostParts (front ++ '.' :: last) = split '.' front ++ [last] := by
    rw [hostParts, hparts, List.getLast?_concat, if_neg]
    simpa using fun _ => hne
  rw [endsInNumber, hhost, List.getLast?_concat]
  simp only [List.isEmpty_eq_false_iff.2 hne, Bool.not_false, Bool.true_and]

/-- A text that is a domain, and does not end in a number, is a name. -/
theorem ofSpecial_name {c : Char} {name : List Char} (hbracket : cs.head? ≠ some '[')
    (hpercent : '%' ∉ cs) (hascii : Domain.toAscii? cs = some (c :: name))
    (hnumber : endsInNumber (c :: name) = false) : Host.ofSpecial cs = .ok (.name (c :: name)) := by
  have hbind : (Utf8.decode (percentDecode (Utf8.encode cs))).bind Domain.toAscii? =
      some (c :: name) := by
    rw [percentDecode_encode hpercent, Utf8.decode_eq_some_iff.2 rfl, Option.bind_some, hascii]
  rw [Host.ofSpecial, if_neg (by simpa using hbracket), hbind]
  exact if_neg (by simp [hnumber])

/-- A host that ends in plain labels is a name that ends in them. -/
theorem exists_name_of_ofSpecial (hrest : HostEnding rest) {host : Host}
    (h : Host.ofSpecial (body ++ '.' :: rest) = .ok host) :
    ∃ before, host = .name (before ++ '.' :: rest) := by
  -- An address in brackets ends with one, and an address of numbers with a number.
  have hbracket (before : List Char) : (before ++ '.' :: rest).getLast? ≠ some ']' := by
    intro hlast
    rw [List.getLast?_append_of_ne_nil _ (List.cons_ne_nil _ _)] at hlast
    exact (hrest.marks _ (List.mem_of_getLast? hlast)).1 (by decide)
  rw [Host.ofSpecial] at h
  split at h
  · rw [Host.ofBrackets, if_neg (by simpa using hbracket body)] at h
    cases h
  · have hpercent : '%' ∉ '.' :: rest := fun hmem => (hrest.marks _ hmem).1 (by decide)
    -- The ending holds no percent sign, so decoding leaves it as it is.
    have hoctets : percentDecode (Utf8.encode (body ++ '.' :: rest)) =
        percentDecode (Utf8.encode body) ++ Utf8.encode ('.' :: rest) := by
      rw [← percentDecode_encode hpercent, Utf8.encode_append]
      exact percentDecode_append_period _ _
    rw [hoctets] at h
    split at h
    · cases h
    · cases h
    · rename_i c tail hascii
      obtain ⟨name, hname, hascii⟩ := Option.bind_eq_some_iff.1 hascii
      obtain ⟨front, rfl, -⟩ := Utf8.exists_of_encode_eq_append hrest.plain.basic
        (Utf8.decode_eq_some_iff.1 hname).symm
      obtain ⟨before, hbefore⟩ := Domain.exists_of_toAscii? hrest.plain hascii
      obtain ⟨first, last, heq, hne, hlast, hnumber⟩ := hrest.number
      rw [hbefore, heq, ← List.append_assoc, endsInNumber_append hne hlast, hnumber] at h
      cases h
      exact ⟨before, by rw [heq, List.append_assoc]⟩

/-! ## Parts of an authority -/

/-- Names and passwords end before the last characters of an authority without `@`. -/
theorem splitAt?_append (h : '@' ∉ cs) (body : List Char) :
    ∃ info host, body = info ++ host ∧ (splitAt? (body ++ cs)).2 = host ++ cs := by
  have hhost : ((body ++ cs).reverse.takeWhile (· != '@')).reverse =
      (body.reverse.takeWhile (· != '@')).reverse ++ cs := by
    rw [List.reverse_append, List.takeWhile_append_of_pos, List.reverse_append,
      List.reverse_reverse]
    intro c hc
    rw [List.mem_reverse] at hc
    simpa using ne_of_mem_of_not_mem hc h
  rw [splitAt?]
  split
  · exact ⟨[], body, rfl, rfl⟩
  · refine ⟨(body.reverse.dropWhile (· != '@')).reverse, _, ?_, hhost⟩
    rw [← List.reverse_append, List.takeWhile_append_dropWhile, List.reverse_reverse]

/-- A port follows the colon after a host. -/
theorem splitHost_spec (bracketed : Bool) (cs : List Char) :
    (splitHost bracketed cs).1 ++ (splitHost bracketed cs).2 = cs ∧
      ((splitHost bracketed cs).2 = [] ∨ ∃ port, (splitHost bracketed cs).2 = ':' :: port) := by
  induction cs generalizing bracketed with
  | nil => exact ⟨rfl, .inl rfl⟩
  | cons c cs ih =>
    rw [splitHost]
    split
    · rename_i hc
      rw [Bool.and_eq_true, beq_iff_eq] at hc
      exact ⟨rfl, .inr ⟨cs, by rw [hc.1]⟩⟩
    · obtain ⟨happend, hport⟩ :=
        ih (if c == '[' then true else if c == ']' then false else bracketed)
      exact ⟨congrArg (c :: ·) happend, hport⟩

/-- Where a host is split does not depend on what follows without a colon. -/
theorem splitHost_append (h : ':' ∉ cs) (body : List Char) :
    splitHost false (body ++ cs) = (body ++ cs, []) ∨ ∃ host port, body = host ++ ':' :: port ∧
      (splitHost false (body ++ cs)).2 = ':' :: (port ++ cs) := by
  obtain ⟨happend, hnone | ⟨port, hport⟩⟩ := splitHost_spec false (body ++ cs)
  · rw [hnone, List.append_nil] at happend
    exact .inl (Prod.ext happend hnone)
  · rw [hport, List.append_eq_append_iff] at happend
    -- The colon stands before the last characters, which hold none.
    rcases happend with ⟨mid, hbody, hmid⟩ | ⟨mid, -, hmid⟩
    · cases mid with
      | nil =>
        rw [List.nil_append] at hmid
        exact absurd (hmid ▸ List.mem_cons_self) h
      | cons c mid =>
        obtain ⟨rfl, rfl⟩ := List.cons.inj hmid
        exact .inr ⟨_, mid, hbody, hport⟩
    · exact absurd (hmid ▸ List.mem_append_right _ List.mem_cons_self) h

/-! ## Ports -/

/-- What ends an authority is no digit. -/
theorem not_isDigit_of_endsAuthority {c : Char} (h : endsAuthority true c = true) :
    isDigit c = false := by
  simp only [endsAuthority, Bool.or_eq_true, Bool.true_and, beq_iff_eq] at h
  rcases h with ((rfl | rfl) | rfl) | rfl <;> rfl

/-- A port is a number up to the end of its authority. -/
theorem readPort_period (hbody : ∀ c ∈ body, endsAuthority true c = false) (scheme cs : List Char) :
    readPort scheme (body ++ '.' :: cs) = .error .invalidPort := by
  obtain ⟨c, tail, hrest, hc⟩ : ∃ c tail, (body ++ '.' :: cs).dropWhile isDigit = c :: tail ∧
      endsAuthority true c = false := by
    induction body with
    | nil => exact ⟨'.', cs, rfl, rfl⟩
    | cons d body ih =>
      obtain ⟨hd, hbody⟩ := List.forall_mem_cons.1 hbody
      rw [List.cons_append, List.dropWhile_cons]
      split
      · exact ih hbody
      · exact ⟨d, _, rfl, hd⟩
  simp only [readPort, hrest, hc, Bool.not_false, Bool.true_or, if_true]

/-- Digits do not go on after what ends an authority. -/
theorem digits_append {d : Char} (hd : endsAuthority true d = true) (body tail : List Char) :
    (body ++ d :: tail).takeWhile isDigit = body.takeWhile isDigit ∧
      (body ++ d :: tail).dropWhile isDigit = body.dropWhile isDigit ++ d :: tail := by
  have hdigit := not_isDigit_of_endsAuthority hd
  induction body with
  | nil => simp [hdigit]
  | cons c body ih =>
    by_cases hc : isDigit c = true
    · simpa [hc] using ih
    · simp [hc]

/-- What ends an authority, and what follows it, have no effect on its port. -/
theorem readPort_congr {d d' : Char} (hd : endsAuthority true d = true)
    (hd' : endsAuthority true d' = true) (scheme body tail tail' : List Char) :
    (readPort scheme (body ++ d :: tail)).map (·.1) =
      (readPort scheme (body ++ d' :: tail')).map (·.1) := by
  simp only [readPort, digits_append hd, digits_append hd']
  cases body.dropWhile isDigit with
  | nil =>
    simp only [List.nil_append, hd, hd']
    split
    · rfl
    · split <;> rfl
  | cons c rest =>
    simp only [List.cons_append]
    split
    · rfl
    · split <;> rfl

/-- A port is read alike whatever ends the authority. -/
theorem exists_readPort {d d' : Char} (hd : endsAuthority true d = true)
    (hd' : endsAuthority true d' = true) {port : Option Nat} {tail left : List Char}
    (h : readPort scheme (body ++ d :: tail) = .ok (port, left)) (tail' : List Char) :
    ∃ left', readPort scheme (body ++ d' :: tail') = .ok (port, left') := by
  have hport := readPort_congr hd hd' scheme body tail tail'
  rw [h] at hport
  cases hread : readPort scheme (body ++ d' :: tail') with
  | error fault =>
    rw [hread] at hport
    cases hport
  | ok p =>
    rw [hread] at hport
    cases hport
    exact ⟨_, rfl⟩

/-! ## Whole authorities -/

/-- An authority goes on until something ends it. -/
theorem region_append {d : Char} (hbody : ∀ c ∈ body, endsAuthority true c = false)
    (hd : endsAuthority true d = true) (tail : List Char) :
    (body ++ d :: tail).takeWhile (!endsAuthority true ·) = body ∧
      (body ++ d :: tail).dropWhile (!endsAuthority true ·) = d :: tail := by
  have hall : ∀ c ∈ body, (!endsAuthority true c) = true := fun c hc => by rw [hbody c hc]; rfl
  rw [List.takeWhile_append_of_pos hall, List.dropWhile_append_of_pos hall]
  simp [hd]

/-- The names and the host of an authority under a special scheme, and its port with the colon
before it. -/
def readRegion (region : List Char) : Except Fault (List Char × Host × List Char) :=
  let (info?, hostport) := splitAt? region
  let (hostText, port) := splitHost false hostport
  if (info? == some [] && hostport.isEmpty) || hostText.isEmpty then .error .emptyHost
  else (Host.ofSpecial hostText).map fun host => (userinfo (info?.getD []), host, port)

/-- A region without marks is a host. -/
theorem readRegion_host {host : Host} (hne : body ≠ []) (hat : '@' ∉ body) (hcolon : ':' ∉ body)
    (h : Host.ofSpecial body = .ok host) : readRegion body = .ok ([], host, []) := by
  have hinfo : splitAt? body = (none, body) := by
    have hall : body.reverse.takeWhile (· != '@') = body.reverse :=
      List.takeWhile_eq_self_iff.2 fun c hc => by
        simpa using ne_of_mem_of_not_mem (List.mem_reverse.1 hc) hat
    rw [splitAt?, hall, List.reverse_reverse]
    exact if_pos (beq_self_eq_true _)
  have hsplit : splitHost false body = (body, []) := by
    rcases splitHost_append hcolon [] with hsplit | ⟨front, port, hnil, -⟩
    · exact hsplit
    · simp at hnil
  rw [readRegion, hinfo]
  simp only [hsplit, List.isEmpty_eq_false_iff.2 hne, h]
  rfl

/-- An authority whose port is still to be read. -/
def withPort (scheme after : List Char) (r : List Char × Host × List Char) :
    Except Fault (Authority × List Char) :=
  match r.2.2 with
  | [] => .ok (⟨r.1, r.2.1, none⟩, after)
  | _ :: digits => (readPort scheme (digits ++ after)).map fun p => (⟨r.1, r.2.1, p.1⟩, p.2)

/-- An authority is read as its region, and then its port. -/
theorem readAuthority_eq {d : Char} (hscheme : isSpecial scheme = true)
    (hbody : ∀ c ∈ body, endsAuthority true c = false) (hd : endsAuthority true d = true)
    (tail : List Char) : readAuthority scheme (body ++ d :: tail) =
      (readRegion body).bind (withPort scheme (d :: tail)) := by
  obtain ⟨htake, hdrop⟩ := region_append hbody hd tail
  rw [readRegion]
  cases hat : splitAt? body with
  | mk info? hostport =>
  cases hhost : splitHost false hostport with
  | mk hostText port =>
  -- An authority may fail for want of a host before any host is read, whatever follows it.
  cases hempty : (info? == some [] && hostport.isEmpty) with
  | true =>
    simp only [readAuthority, hscheme, htake, hdrop, hat, hempty, List.isEmpty_cons, Bool.not_false,
      Bool.and_true, Bool.true_or, if_true]
    rfl
  | false =>
    cases hnone : hostText.isEmpty with
    | true =>
      simp only [readAuthority, hscheme, htake, hdrop, hat, hempty, hhost, hnone, Bool.false_and,
        Bool.and_true, Bool.or_true, if_true, Bool.false_eq_true, if_false]
      rfl
    | false =>
      simp only [readAuthority, hscheme, htake, hdrop, hat, hempty, hhost, hnone, Bool.false_and,
        Bool.and_false, Bool.or_false, if_true, Bool.false_eq_true, if_false]
      cases Host.ofSpecial hostText with
      | error fault => rfl
      | ok host =>
        cases port with
        | nil => rfl
        | cons colon digits =>
          show (readPort scheme (digits ++ d :: tail)).bind _ = Except.map _ _
          cases readPort scheme (digits ++ d :: tail) <;> rfl

/-- What ends an authority, and what follows it, have no effect on it. -/
theorem exists_readAuthority {d d' : Char} (hscheme : isSpecial scheme = true)
    (hbody : ∀ c ∈ body, endsAuthority true c = false) (hd : endsAuthority true d = true)
    (hd' : endsAuthority true d' = true) {tail left : List Char} {a : Authority}
    (h : readAuthority scheme (body ++ d :: tail) = .ok (a, left)) (tail' : List Char) :
    ∃ left', readAuthority scheme (body ++ d' :: tail') = .ok (a, left') := by
  rw [readAuthority_eq hscheme hbody hd] at h
  rw [readAuthority_eq hscheme hbody hd']
  -- Only a port is read up to the character that ends the authority; the region is read before.
  cases hr : readRegion body with
  | error fault =>
    rw [hr] at h
    cases h
  | ok r =>
    obtain ⟨info, host, port⟩ := r
    rw [hr, Except.bind, withPort] at h
    rw [Except.bind, withPort]
    cases port with
    | nil =>
      cases h
      exact ⟨_, rfl⟩
    | cons colon digits =>
      simp only at h ⊢
      cases hread : readPort scheme (digits ++ d :: tail) with
      | error fault =>
        rw [hread] at h
        cases h
      | ok p =>
        obtain ⟨left', hread'⟩ := exists_readPort hd hd' hread tail'
        rw [hread] at h
        rw [hread']
        cases h
        exact ⟨_, rfl⟩

/-- Where an authority ends in plain labels, they belong to its host or to its port. -/
theorem readRegion_cases (hrest : HostEnding rest) {r : List Char × Host × List Char}
    (h : readRegion (body ++ '.' :: rest) = .ok r) :
    (∃ before, r.2.1 = .name (before ++ '.' :: rest)) ∧ r.2.2 = [] ∨
      ∃ port, port ⊆ body ∧ r.2.2 = ':' :: (port ++ '.' :: rest) := by
  -- The ending holds none of the marks, so all cuts fall before it.
  have hat : '@' ∉ '.' :: rest := fun hmem => (hrest.marks _ hmem).1 (by decide)
  have hcolon : ':' ∉ '.' :: rest := fun hmem => (hrest.marks _ hmem).1 (by decide)
  obtain ⟨info, hostport, rfl, hsplit⟩ := splitAt?_append hat body
  rw [readRegion] at h
  cases hinfo : splitAt? (info ++ hostport ++ '.' :: rest) with
  | mk info? text =>
  obtain rfl : text = hostport ++ '.' :: rest := by rw [← hsplit, hinfo]
  rcases splitHost_append hcolon hostport with hhost | ⟨host, port, rfl, hport⟩
  · simp only [hinfo, hhost] at h
    split at h
    · cases h
    · cases hname : Host.ofSpecial (hostport ++ '.' :: rest) with
      | error fault =>
        rw [hname] at h
        cases h
      | ok host =>
        rw [hname] at h
        cases h
        exact .inl ⟨exists_name_of_ofSpecial hrest hname, rfl⟩
  · simp only [hinfo] at h
    split at h
    · cases h
    · cases hname : Host.ofSpecial (splitHost false (host ++ ':' :: port ++ '.' :: rest)).1 with
      | error fault =>
        rw [hname] at h
        cases h
      | ok host =>
        rw [hname] at h
        cases h
        refine .inr ⟨port, fun c hc => ?_, hport⟩
        exact List.mem_append_right _ (List.mem_append_right _ (List.mem_cons_of_mem _ hc))

/-- An authority that ends in plain labels has a name that ends in them as its host. -/
theorem exists_name_of_readAuthority (hrest : HostEnding rest) (hscheme : isSpecial scheme = true)
    {d : Char} (hbody : ∀ c ∈ body, endsAuthority true c = false)
    (hd : endsAuthority true d = true) {tail left : List Char} {a : Authority}
    (h : readAuthority scheme (body ++ '.' :: rest ++ d :: tail) = .ok (a, left)) :
    ∃ before, a.host = .name (before ++ '.' :: rest) := by
  have hregion : ∀ c ∈ body ++ '.' :: rest, endsAuthority true c = false :=
    List.forall_mem_append.2 ⟨hbody, fun c hc => (hrest.marks c hc).2⟩
  rw [readAuthority_eq hscheme hregion hd] at h
  cases hr : readRegion (body ++ '.' :: rest) with
  | error fault =>
    rw [hr] at h
    cases h
  | ok r =>
    rw [hr, Except.bind, withPort] at h
    rcases readRegion_cases hrest hr with ⟨hhost, hport⟩ | ⟨port, hsub, hport⟩
    · rw [hport] at h
      cases h
      exact hhost
    · -- The labels are no number, so there is no port.
      rw [hport] at h
      simp only [List.append_assoc, List.cons_append] at h
      rw [readPort_period fun c hc => hbody c (hsub hc)] at h
      cases h

/-! ## Addresses under a special scheme -/

/-- An address that is read has its scheme, a path of segments, and the authority at its front. -/
theorem exists_of_readAfterSlashes {u : Url} (h : readAfterSlashes scheme cs = .ok u) :
    u.scheme = scheme ∧ (∃ parts, u.path = .segments parts) ∧
      ∃ a left, readAuthority scheme cs = .ok (a, left) ∧ u.authority = some a := by
  rw [readAfterSlashes] at h
  split at h
  · cases h
  · rename_i a left hauthority
    cases h
    exact ⟨rfl, ⟨_, rfl⟩, a, left, hauthority, rfl⟩

/-- An address is read if its authority is. -/
theorem exists_readAfterSlashes {a : Authority} {left : List Char}
    (h : readAuthority scheme cs = .ok (a, left)) :
    ∃ u, readAfterSlashes scheme cs = .ok u ∧ u.authority = some a := by
  rw [readAfterSlashes, h]
  exact ⟨_, rfl, rfl⟩

/-- The scheme of secure addresses. -/
def secureScheme : List Char := "https".toList

theorem isSpecial_secureScheme : isSpecial secureScheme = true := by decide +kernel

/-- The start of secure addresses. -/
def secureStart : List Char := ['h', 't', 't', 'p', 's', ':', '/', '/']

/-- An address under the secure scheme is what its authority and all after it spell. -/
theorem parse_secure {text : String} (h : text.toList = secureStart ++ (body ++ ['/'])) :
    parse text = readAfterSlashes secureScheme ((clean body ++ ['/']).dropWhile isSlash) := by
  have hends {p : Char → Bool} (hstart : ¬ p 'h' = true) (hend : ¬ p '/' = true) :
      trimEnd p (trimStart p (secureStart ++ (body ++ ['/']))) =
        secureStart ++ (body ++ ['/']) := by
    have hfirst : ¬ Starts p (secureStart ++ (body ++ ['/'])) := mt starts_cons.1 hstart
    have hlast : ¬ Ends p (secureStart ++ (body ++ ['/'])) := by
      rwa [← List.append_assoc, ends_concat]
    have htrim : trimStart p (secureStart ++ (body ++ ['/'])) = secureStart ++ (body ++ ['/']) :=
      trimStart_eq_iff.2 ⟨[], rfl, nofun, hfirst⟩
    rw [htrim]
    exact trimEnd_eq_iff.2 ⟨[], (List.append_nil _).symm, nofun, hlast⟩
  have htrim : trim text.toList = text.toList := by
    rw [h]
    exact hends (by decide) (by decide)
  have hclean : clean (secureStart ++ (body ++ ['/'])) = secureStart ++ (clean body ++ ['/']) := by
    simp only [clean, List.filter_append]
    rfl
  have hscheme : scheme? (secureStart ++ (clean body ++ ['/'])) =
      some (secureScheme, '/' :: '/' :: (clean body ++ ['/'])) := rfl
  rw [parse, htrim, h, hclean, hscheme]
  rfl

end Stencil.Url
