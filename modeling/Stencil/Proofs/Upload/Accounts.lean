import Mathlib.Data.Bool.AllAny
import Stencil.Proofs.Url.Authority
import Stencil.Upload.Container

/-!
# Hosts of accounts

The name of an account stands in front of the domain of all accounts, and the two are read together
as one address. Where the name holds nothing that ends an authority, the host is below the domain,
or there is no container. Where it does, the domain is a part of the path, the query or the
fragment, and the host is what stands before.
-/

namespace Stencil.Upload

open Url

/-- The domain of all accounts in the public cloud. -/
def cloudDomain : List Char := "blob.core.windows.net".toList

/-- The domain of the cloud may end a host. -/
theorem hostEnding_cloudDomain : HostEnding cloudDomain where
  plain :=
    { mapped := by decide +kernel
      basic := List.all_iff_forall_prop.1 (by decide +kernel)
      labels := ⟨_, rfl, by decide +kernel⟩ }
  marks := List.all_iff_forall_prop.1 (by decide +kernel)
  number := ⟨".blob.core.windows".toList, "net".toList, by decide +kernel⟩

/-- The name of an account as it is read in an address: without tabs, line ends and the slashes in
front. -/
def spelled (account : String) : List Char := (clean account.toList).dropWhile isSlash

/-- The address of an account is read from its name, the domain of the cloud and a slash. -/
theorem parse_accountEndpoint (account : String) :
    Url.parse (Container.accountEndpoint account) =
      readAfterSlashes secureScheme (spelled account ++ '.' :: cloudDomain ++ ['/']) := by
  have hstart : "https://".toList = secureStart := by decide +kernel
  have hend : ".blob.core.windows.net/".toList = '.' :: cloudDomain ++ ['/'] := by decide +kernel
  have htext : (Container.accountEndpoint account).toList =
      secureStart ++ (account.toList ++ '.' :: cloudDomain ++ ['/']) := by
    rw [Container.accountEndpoint, String.toList_append, String.toList_append, hstart, hend]
    simp only [List.append_assoc]
  have hclean : clean (account.toList ++ '.' :: cloudDomain) =
      clean account.toList ++ '.' :: cloudDomain := by
    rw [clean, List.filter_append]
    exact congrArg _ (by decide +kernel)
  have hdrop (cs : List Char) : (cs ++ '.' :: (cloudDomain ++ ['/'])).dropWhile isSlash =
      cs.dropWhile isSlash ++ '.' :: (cloudDomain ++ ['/']) :=
    Text.trimStart_append (p := isSlash) (mt Text.starts_cons.1 (by decide))
  rw [parse_secure htext, hclean, List.append_assoc, List.cons_append, hdrop, spelled,
    List.append_assoc, List.cons_append]

namespace Container

variable {account name : String} {c : Container}

/-- An account that is refused makes an invalid endpoint. -/
theorem exists_of_ofAccount_error {e : Error} (h : ofAccount account name = .error e) :
    ∃ text, e = .invalidEndpoint text := by
  rw [ofAccount, atEndpoint] at h
  split at h
  · cases h
    exact ⟨_, rfl⟩
  · split at h
    · cases h
    · cases h
      exact ⟨_, rfl⟩

/-- The address of a container of an account is the one that is spelled, under the scheme of secure
addresses. -/
theorem exists_of_ofAccount (h : ofAccount account name = .ok c) :
    c.endpoint.scheme = secureScheme ∧ (∃ parts, c.endpoint.path = .segments parts) ∧
      ∃ a left, readAuthority secureScheme (spelled account ++ '.' :: cloudDomain ++ ['/']) =
        .ok (a, left) ∧ c.endpoint.authority = some a := by
  rw [ofAccount, atEndpoint, parse_accountEndpoint] at h
  split at h
  · cases h
  · rename_i u hread
    split at h
    · cases h
      exact exists_of_readAfterSlashes hread
    · cases h

/-- An authority with a host and no port makes a container. -/
theorem exists_ofAccount {region tail info : List Char} {d : Char} {host : Url.Host}
    (hspelled : spelled account ++ '.' :: cloudDomain ++ ['/'] = region ++ d :: tail)
    (hregion : ∀ ch ∈ region, endsAuthority true ch = false) (hd : endsAuthority true d = true)
    (h : readRegion region = .ok (info, host, [])) (name : String) :
    ∃ c, ofAccount account name = .ok c ∧ c.endpoint.authority = some ⟨info, host, none⟩ := by
  have hread : readAuthority secureScheme (region ++ d :: tail) =
      .ok (⟨info, host, none⟩, d :: tail) := by
    rw [readAuthority_eq isSpecial_secureScheme hregion hd, h]
    rfl
  obtain ⟨u, hu, hauthority⟩ := exists_readAfterSlashes hread
  obtain ⟨hscheme, ⟨parts, hpath⟩, -⟩ := exists_of_readAfterSlashes hu
  have hsecure : schemes.contains secureScheme = true := by decide +kernel
  have hsends : (schemes.contains u.scheme && hasSegments u.path) = true := by
    rw [hscheme, hpath, hsecure]
    rfl
  rw [ofAccount, atEndpoint, parse_accountEndpoint, hspelled, hu]
  exact ⟨_, if_pos hsends, hauthority⟩

/-- Every key has an address, with the scheme and the authority of the container. -/
theorem exists_urlOf {parts : List (List Char)} (h : c.endpoint.path = .segments parts)
    (key : String) : ∃ url, c.urlOf key = .ok url ∧ url.scheme = c.endpoint.scheme ∧
      url.authority = c.endpoint.authority := by
  rw [urlOf, h]
  exact ⟨_, rfl, rfl, rfl⟩

/-- An address with nothing behind its authority. -/
theorem parse_front {front : List Char} (hne : front ≠ []) (hclean : clean front = front)
    (hfront : ∀ ch ∈ front, endsAuthority true ch = false) :
    Url.parse (String.ofList ("https://".toList ++ front ++ ['/'])) =
      readAfterSlashes secureScheme (front ++ ['/']) := by
  have htext : (String.ofList ("https://".toList ++ front ++ ['/'])).toList =
      secureStart ++ (front ++ ['/']) := by
    rw [String.toList_ofList, List.append_assoc]
    exact congrArg (· ++ _) (by decide +kernel)
  obtain ⟨ch, tail, rfl⟩ := List.exists_cons_of_ne_nil hne
  have hslash : ¬ isSlash ch = true := fun h => by
    have hch := hfront ch List.mem_cons_self
    simp only [isSlash, Bool.or_eq_true, beq_iff_eq] at h
    rcases h with rfl | rfl <;> cases hch
  rw [parse_secure htext, hclean, List.cons_append, List.dropWhile_cons_of_neg hslash]

/-- The addresses of an account have one host. Where the name of the account holds nothing that ends
an authority, the host is below the domain of all accounts. Where it does, the host is the one that
is spelled before. -/
theorem account_host (account name : String) :
    (∀ e, ofAccount account name = .error e → ∃ text, e = .invalidEndpoint text) ∧
      ∀ c, ofAccount account name = .ok c → c.endpoint.scheme = "https".toList ∧
        ∃ a, c.endpoint.authority = some a ∧
          (∀ key, ∃ url, c.urlOf key = .ok url ∧ url.scheme = "https".toList ∧
            url.authority = some a) ∧
          ((∀ ch ∈ spelled account, endsAuthority true ch = false) →
            ∃ front, a.host = .name (front ++ ".blob.core.windows.net".toList)) ∧
          ∀ front d rest, spelled account = front ++ d :: rest →
            (∀ ch ∈ front, endsAuthority true ch = false) → endsAuthority true d = true →
            ∃ u, Url.parse (String.ofList ("https://".toList ++ front ++ ['/'])) = .ok u ∧
              u.authority = some a := by
  refine ⟨fun e => exists_of_ofAccount_error, fun c h => ?_⟩
  obtain ⟨hscheme, ⟨parts, hparts⟩, a, left, hread, hauthority⟩ := exists_of_ofAccount h
  have hslash : endsAuthority true '/' = true := rfl
  refine ⟨hscheme, a, hauthority, fun key => ?_, fun hplain => ?_,
    fun front d rest hspelled hfront hd => ?_⟩
  · obtain ⟨url, hurl, hurlScheme, hurlAuthority⟩ := exists_urlOf hparts key
    exact ⟨url, hurl, hurlScheme.trans hscheme, hurlAuthority.trans hauthority⟩
  · exact exists_name_of_readAuthority hostEnding_cloudDomain isSpecial_secureScheme hplain hslash
      hread
  · rw [hspelled, List.append_assoc, List.append_assoc, List.cons_append] at hread
    obtain ⟨left, hfrontRead⟩ :=
      exists_readAuthority isSpecial_secureScheme hfront hd hslash hread []
    -- Spelled by itself, the front is read as it is read before the character that ends it.
    have hne : front ≠ [] := by
      rintro rfl
      cases hfrontRead
    have hclean : clean front = front := by
      refine List.filter_eq_self.2 fun ch hch => ?_
      have hmem : ch ∈ spelled account := hspelled ▸ List.mem_append_left _ hch
      exact (List.mem_filter.1 ((List.dropWhile_sublist _).subset hmem)).2
    rw [parse_front hne hclean hfront]
    exact exists_readAfterSlashes hfrontRead

/-- The container of an account whose name is plain. -/
theorem account_host_store : ∃ c a front, ofAccount "store" "files" = .ok c ∧
    c.endpoint.authority = some a ∧ a.host = .name (front ++ ".blob.core.windows.net".toList) := by
  have hmapped : Domain.mapText "store.blob.core.windows.net".toList =
      some "store.blob.core.windows.net".toList := by
    decide +kernel
  have hascii : Domain.toAscii? "store.blob.core.windows.net".toList =
      some "store.blob.core.windows.net".toList :=
    Domain.toAscii?_basic hmapped (List.all_iff_forall_prop.1 (by decide +kernel)) rfl
      (by decide +kernel)
  have hregion := readRegion_host (by decide +kernel) (by decide +kernel) (by decide +kernel)
    (ofSpecial_name (by decide +kernel) (by decide +kernel) hascii (by decide +kernel))
  have hspelled : spelled "store" ++ '.' :: cloudDomain ++ ['/'] =
      "store.blob.core.windows.net".toList ++ '/' :: [] := by
    decide +kernel
  have hauthority : ∀ ch ∈ "store.blob.core.windows.net".toList, endsAuthority true ch = false :=
    List.all_iff_forall_prop.1 (by decide +kernel)
  obtain ⟨c, hc, -⟩ := exists_ofAccount hspelled hauthority rfl hregion "files"
  obtain ⟨-, a, ha, -, hplain, -⟩ := (account_host "store" "files").2 c hc
  obtain ⟨front, hfront⟩ := hplain (List.all_iff_forall_prop.1 (by decide +kernel))
  exact ⟨c, a, front, hc, ha, hfront⟩

/-- An account whose name holds a slash has a container outside the domain of all accounts. -/
theorem account_outside : ∃ c a, ofAccount "other.org/" "files" = .ok c ∧
    c.endpoint.authority = some a ∧ a.host = .name "other.org".toList ∧
      (∀ key, ∃ url, c.urlOf key = .ok url ∧ url.authority = some a) ∧
      ¬ ".blob.core.windows.net".toList <:+ a.host.text := by
  have hmapped : Domain.mapText "other.org".toList = some "other.org".toList := by decide +kernel
  have hascii : Domain.toAscii? "other.org".toList = some "other.org".toList :=
    Domain.toAscii?_basic hmapped (List.all_iff_forall_prop.1 (by decide +kernel)) rfl
      (by decide +kernel)
  have hname : Url.Host.ofSpecial "other.org".toList = .ok (.name "other.org".toList) :=
    ofSpecial_name (by decide +kernel) (by decide +kernel) hascii (by decide +kernel)
  have hregion := readRegion_host (by decide +kernel) (by decide +kernel) (by decide +kernel) hname
  have hspelled : spelled "other.org/" ++ '.' :: cloudDomain ++ ['/'] =
      "other.org".toList ++ '/' :: ('.' :: cloudDomain ++ ['/']) := by
    decide +kernel
  have hauthority : ∀ ch ∈ "other.org".toList, endsAuthority true ch = false :=
    List.all_iff_forall_prop.1 (by decide +kernel)
  obtain ⟨c, hc, ha⟩ := exists_ofAccount hspelled hauthority rfl hregion "files"
  obtain ⟨-, ⟨parts, hparts⟩, -⟩ := exists_of_ofAccount hc
  have hbelow : ¬ ".blob.core.windows.net".toList <:+ "other.org".toList := by decide +kernel
  refine ⟨c, _, hc, ha, rfl, fun key => ?_, hbelow⟩
  obtain ⟨url, hurl, -, hauthority⟩ := exists_urlOf hparts key
  exact ⟨url, hurl, hauthority.trans ha⟩

end Container

end Stencil.Upload
