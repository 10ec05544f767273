import XtpRs.Lib.SortedSearch
import XtpRs.Net.Text
import XtpRs.Routing.IpSet

/-!
# Tables by client network

`ClientCidrRoutes` of `src/state.rs` maps networks to values. The networks of each address family
are sorted by the length of their prefixes, longest first, and a lookup goes through them in this
order.

## Main definitions

* `IpNet.contains`.
* `ClientCidrRoutes`, `ClientCidrRoutes.lookup`, `ClientCidrRoutes.findMapMatching`.
* `ClientCidrRoutes.ofEntries`: the table that is built from a list of entries.

## Main results

* `ClientCidrRoutes.isBest_of_findMapMatching`: the entry found is one with the longest prefix.
* `ClientCidrRoutes.findMapMatching_ofEntries_cons`: every such entry is found when it is inserted
  first.
-/

namespace XtpRs

open Lib Routing

/-- `IpNet::contains` of `ipnet`: the address has the family of the network, and lies between its
first and its last address, so it has its leading bits. -/
def IpNet.contains (net : IpNet) (ip : IpAddr) : Bool :=
  match net.addr, ip with
  | .v4 a, .v4 b =>
    (addrBits a.octets).take net.prefixLen == (addrBits b.octets).take net.prefixLen
  | .v6 a, .v6 b =>
    (addrBits a.octets).take net.prefixLen == (addrBits b.octets).take net.prefixLen
  | _, _ => false

/-- `ClientCidrRoutes`. -/
structure ClientCidrRoutes (T : Type) where
  v4 : List (IpNet × T) := []
  v6 : List (IpNet × T) := []

namespace ClientCidrRoutes

variable {T R : Type}

/-- `ClientCidrRoutes::insert`. -/
def insert (routes : ClientCidrRoutes T) (net : IpNet) (value : T) : ClientCidrRoutes T :=
  match net.addr with
  | .v4 _ => { routes with v4 := routes.v4 ++ [(net, value)] }
  | .v6 _ => { routes with v6 := routes.v6 ++ [(net, value)] }

/-- `ClientCidrRoutes::finalize`. -/
def finalize (routes : ClientCidrRoutes T) : ClientCidrRoutes T where
  v4 := sortByKeyDesc (fun e => e.1.prefixLen) routes.v4
  v6 := sortByKeyDesc (fun e => e.1.prefixLen) routes.v6

/-- `ClientCidrRoutes::lookup`. -/
def lookup (routes : ClientCidrRoutes T) (ip : IpAddr) : Option T :=
  match ip with
  | .v4 _ => (routes.v4.find? fun e => e.1.contains ip).map Prod.snd
  | .v6 _ => (routes.v6.find? fun e => e.1.contains ip).map Prod.snd

/-- `ClientCidrRoutes::find_map_matching`. -/
def findMapMatching (routes : ClientCidrRoutes T) (ip : IpAddr) (f : T → Option R) : Option R :=
  match ip with
  | .v4 _ => (routes.v4.filter fun e => e.1.contains ip).findSome? fun e => f e.2
  | .v6 _ => (routes.v6.filter fun e => e.1.contains ip).findSome? fun e => f e.2

/-- The table built from entries inserted one after the other. -/
def ofEntries (entries : List (IpNet × T)) : ClientCidrRoutes T :=
  (entries.foldl (fun (routes : ClientCidrRoutes T) e => routes.insert e.1 e.2) {}).finalize

/-! ### Lookup by entries -/

/-- The network has the family of the address. -/
def sameFamily (ip : IpAddr) (net : IpNet) : Bool :=
  match net.addr, ip with
  | .v4 _, .v4 _ => true
  | .v6 _, .v6 _ => true
  | _, _ => false

/-- The entries of one family. -/
def family (routes : ClientCidrRoutes T) : IpAddr → List (IpNet × T)
  | .v4 _ => routes.v4
  | .v6 _ => routes.v6

theorem family_insert (routes : ClientCidrRoutes T) (ip : IpAddr) (e : IpNet × T) :
    (routes.insert e.1 e.2).family ip =
      routes.family ip ++ [e].filter fun e => sameFamily ip e.1 := by
  obtain ⟨⟨addr, prefixLen⟩, value⟩ := e
  cases addr with
  | v4 a => cases ip <;> simp [insert, family, sameFamily]
  | v6 a => cases ip <;> simp [insert, family, sameFamily]

/-- Each family has its entries in the order of insertion. -/
theorem family_foldl_insert (routes : ClientCidrRoutes T) (ip : IpAddr)
    (entries : List (IpNet × T)) :
    (entries.foldl (fun routes e => routes.insert e.1 e.2) routes).family ip =
      routes.family ip ++ entries.filter fun e => sameFamily ip e.1 := by
  induction entries generalizing routes with
  | nil => simp
  | cons e entries ih =>
    rw [List.foldl_cons, ih, family_insert, List.append_assoc, ← List.filter_append]
    rfl

theorem family_ofEntries (ip : IpAddr) (entries : List (IpNet × T)) :
    (ofEntries entries).family ip =
      sortByKeyDesc (fun e => e.1.prefixLen) (entries.filter fun e => sameFamily ip e.1) := by
  have hfold := family_foldl_insert {} ip entries
  have hempty : family ({} : ClientCidrRoutes T) ip = [] := by cases ip <;> rfl
  rw [hempty, List.nil_append] at hfold
  rw [← hfold]
  cases ip <;> rfl

theorem sameFamily_of_contains {net : IpNet} {ip : IpAddr} (h : net.contains ip = true) :
    sameFamily ip net = true := by
  obtain ⟨addr, prefixLen⟩ := net
  cases addr with
  | v4 a =>
    cases ip with
    | v4 b => rfl
    | v6 b => cases h
  | v6 a =>
    cases ip with
    | v4 b => cases h
    | v6 b => rfl

/-- What an entry gives for an address. -/
def entryResult (ip : IpAddr) (f : T → Option R) (e : IpNet × T) : Option R :=
  if e.1.contains ip then f e.2 else none

theorem findMapMatching_eq (routes : ClientCidrRoutes T) (ip : IpAddr) (f : T → Option R) :
    routes.findMapMatching ip f = (routes.family ip).findSome? (entryResult ip f) := by
  have hfilter : ∀ l : List (IpNet × T), ((l.filter fun e => e.1.contains ip).findSome?
      fun e => f e.2) = l.findSome? (entryResult ip f) := by
    intro l
    induction l with
    | nil => rfl
    | cons e l ih =>
      by_cases he : e.1.contains ip = true
      · rw [List.filter_cons_of_pos (by exact he), List.findSome?_cons, List.findSome?_cons, ih,
          entryResult, if_pos he]
      · rw [List.filter_cons_of_neg (by exact he), List.findSome?_cons, ih, entryResult, if_neg he]
  cases ip with
  | v4 a => exact hfilter routes.v4
  | v6 a => exact hfilter routes.v6

/-- A plain lookup takes the value of the entry as it is. -/
theorem lookup_eq_findMapMatching (routes : ClientCidrRoutes T) (ip : IpAddr) :
    routes.lookup ip = routes.findMapMatching ip some := by
  have hfind : ∀ l : List (IpNet × T), ((l.find? fun e => e.1.contains ip).map Prod.snd) =
      (l.filter fun e => e.1.contains ip).findSome? fun e => some e.2 := by
    intro l
    rw [← List.head?_filter]
    cases l.filter fun e => e.1.contains ip with
    | nil => rfl
    | cons e l => rfl
  cases ip with
  | v4 a => exact hfind routes.v4
  | v6 a => exact hfind routes.v6

variable {entries : List (IpNet × T)} {ip : IpAddr} {f : T → Option R} {r : R}

theorem isSome_entryResult_iff {e : IpNet × T} :
    (entryResult ip f e).isSome = true ↔ e.1.contains ip = true ∧ (f e.2).isSome = true := by
  rw [entryResult]
  split_ifs with h <;> simp [h]

/-- **The entry found.** It contains the address, yields the result, and has the longest prefix
among the entries that contain the address and yield one. -/
theorem isBest_of_findMapMatching (h : (ofEntries entries).findMapMatching ip f = some r) :
    ∃ e, f e.2 = some r ∧ IsBest (fun e => e.1.prefixLen)
      (fun e => e.1.contains ip = true ∧ (f e.2).isSome = true) {e | e ∈ entries} e := by
  rw [findMapMatching_eq, family_ofEntries] at h
  obtain ⟨e, he, hmem, hkind, hle⟩ := isBest_of_findSome? h
  obtain ⟨hcontains, hsome⟩ := isSome_entryResult_iff.mp hkind
  rw [entryResult, if_pos hcontains] at he
  refine ⟨e, he, List.mem_of_mem_filter hmem, ⟨hcontains, hsome⟩, fun e' he' hkind' => ?_⟩
  refine hle e' (List.mem_filter.mpr ⟨he', sameFamily_of_contains hkind'.1⟩) ?_
  exact isSome_entryResult_iff.mpr hkind'

theorem findMapMatching_eq_none_iff : (ofEntries entries).findMapMatching ip f = none ↔
    ∀ e ∈ entries, e.1.contains ip = true → f e.2 = none := by
  rw [findMapMatching_eq, family_ofEntries, findSome?_eq_none_iff]
  constructor
  · intro h e he hcontains
    have hnone := h e (List.mem_filter.mpr ⟨he, sameFamily_of_contains hcontains⟩)
    rwa [entryResult, if_pos hcontains] at hnone
  · intro h e he
    rw [entryResult]
    split_ifs with hcontains
    · exact h e (List.mem_of_mem_filter he) hcontains
    · rfl

/-- **Every entry with the longest prefix can be found.** It is, when it is inserted first. -/
theorem findMapMatching_ofEntries_cons {e : IpNet × T} (he : f e.2 = some r)
    (hcontains : e.1.contains ip = true)
    (hbest : ∀ e' ∈ entries, e'.1.contains ip = true → (f e'.2).isSome = true →
      e'.1.prefixLen ≤ e.1.prefixLen) :
    (ofEntries (e :: entries)).findMapMatching ip f = some r := by
  rw [findMapMatching_eq, family_ofEntries,
    List.filter_cons_of_pos (by exact sameFamily_of_contains hcontains)]
  refine findSome?_sortByKeyDesc_cons ?_ fun e' he' hsome => ?_
  · rw [entryResult, if_pos hcontains, he]
  · obtain ⟨hcontains', hsome'⟩ := isSome_entryResult_iff.mp hsome
    exact hbest e' (List.mem_of_mem_filter he') hcontains' hsome'

end ClientCidrRoutes

end XtpRs
