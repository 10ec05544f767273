import XtpRs.Config.Startup
import XtpRs.Lib.Digits
import XtpRs.Routing.Direct

/-!
# The sets of forced addresses

`parse_ip_net_list` and `build_ip_tries` of `src/util.rs` make the forced-IP sets of an `AppState`
out of the lists of the configuration. `ipv4_trie_contains` and `ipv6_trie_contains` take an address
for a member if the longest prefix that matches it has a length other than zero, because the root
prefix is always there. So a network of length zero is in the set and has no effect.

The tries and their prefixes come from the `iptrie` package, the networks from `ipnet`.
`newIpPrefix`, `RTrieSet` and `IpNet.contains` are what they are in every implementation that keeps
the promises of these packages (`LawfulTrie`, `LawfulContains`).

## Main definitions

* `buildIpTries`.
* `LawfulTrie`, `LawfulContains`: what is assumed of the two packages; `lawfulTrie` and
  `lawfulContains` are the functions of the model.

## Main results

* `LawfulTrie.newPrefix_eq`, `LawfulTrie.lookup_eq`, `LawfulContains.contains_eq`: the assumptions
  determine what the functions of the packages return.
* `LawfulTrie.length_lookup_ne_zero_iff`: so what the tries find is the same over any packages.
* `buildIpTries_eq_ok`: the tries of networks whose prefixes are not too long.
* `forcedIps_exact_iff`: an address is found exactly if one of the networks contains it, unless only
  a network of length zero does.
-/

namespace XtpRs

open Lib Routing

/-- The number of bits of an address. -/
def IpAddr.bitLen : IpAddr → ℕ
  | .v4 _ => 32
  | .v6 _ => 128

/-- The octets of an address. -/
def IpAddr.octets : IpAddr → Bytes
  | .v4 ip => ip.octets
  | .v6 ip => ip.octets

/-- `IpNet::network`, by its bits: those of the address, with the bits of the host cleared. -/
def IpNet.networkBits (net : IpNet) : List Bool :=
  (addrBits net.addr.octets).take net.prefixLen ++
    List.replicate (net.addr.bitLen - net.prefixLen) false

/-- The failures of `build_ip_tries`. -/
inductive TrieError
  | convertIpv4
  | convertIpv6
  deriving DecidableEq, Repr

/-- `Ipv4Prefix::new` and `Ipv6Prefix::new` of `iptrie`: a prefix that is longer than the address is
refused, and the bits behind a prefix do not matter. -/
def newIpPrefix (bits : List Bool) (len : ℕ) : Option IpPrefix :=
  if len ≤ bits.length then some (bits.take len) else none

/-- One turn of the loop of `build_ip_tries`. -/
def pushPrefix (tries : List IpPrefix × List IpPrefix) (net : IpNet) :
    Except TrieError (List IpPrefix × List IpPrefix) :=
  match net.addr, newIpPrefix net.networkBits net.prefixLen with
  | .v4 _, some p => .ok (tries.1 ++ [p], tries.2)
  | .v4 _, none => .error .convertIpv4
  | .v6 _, some p => .ok (tries.1, tries.2 ++ [p])
  | .v6 _, none => .error .convertIpv6

/-- `build_ip_tries`. -/
def buildIpTries (nets : List IpNet) : Except TrieError (RTrieSet × RTrieSet) := do
  let (v4, v6) ← nets.foldlM pushPrefix ([], [])
  return (⟨v4⟩, ⟨v6⟩)

/-! ### The tries -/

/-- The prefix is not longer than the address. -/
def IpNet.Valid (net : IpNet) : Prop :=
  net.prefixLen ≤ net.addr.bitLen

/-- The leading bits of a network. -/
def IpNet.leadingBits (net : IpNet) : IpPrefix :=
  (addrBits net.addr.octets).take net.prefixLen

theorem length_addrBits (octets : Bytes) : (addrBits octets).length = 8 * octets.length := by
  induction octets with
  | nil => rfl
  | cons b octets ih =>
    rw [addrBits, List.flatMap_cons, List.length_append, ← addrBits, ih, octetBits, List.length_map,
      List.length_range, List.length_cons]
    omega

theorem length_addrBits_octets (ip : IpAddr) : (addrBits ip.octets).length = ip.bitLen := by
  rw [length_addrBits]
  cases ip with
  | v4 ip => rfl
  | v6 ip =>
    rw [IpAddr.octets, ip.length_octets]
    rfl

theorem IpNet.Valid.length_leadingBits {net : IpNet} (h : net.Valid) :
    net.leadingBits.length = net.prefixLen := by
  rw [leadingBits, List.length_take, length_addrBits_octets]
  exact min_eq_left h

/-- Clearing the bits of the host leaves the prefix. -/
theorem IpNet.Valid.newIpPrefix_eq {net : IpNet} (h : net.Valid) :
    newIpPrefix net.networkBits net.prefixLen = some net.leadingBits := by
  have hlength : net.networkBits.length = net.addr.bitLen := by
    rw [networkBits, ← leadingBits, List.length_append, h.length_leadingBits, List.length_replicate]
    exact Nat.add_sub_cancel' h
  rw [newIpPrefix, if_pos (hlength.symm ▸ h), networkBits, ← leadingBits,
    List.take_left' h.length_leadingBits]

/-- The network has an IPv4 address. -/
def IpNet.isV4 (net : IpNet) : Bool :=
  match net.addr with
  | .v4 _ => true
  | .v6 _ => false

/-- The loop of `build_ip_tries` goes through all networks and sorts their prefixes by family. -/
theorem foldlM_pushPrefix {nets : List IpNet} (h : ∀ net ∈ nets, net.Valid)
    (tries : List IpPrefix × List IpPrefix) :
    nets.foldlM pushPrefix tries =
      .ok (tries.1 ++ (nets.filter IpNet.isV4).map IpNet.leadingBits,
        tries.2 ++ (nets.filter fun net => !net.isV4).map IpNet.leadingBits) := by
  induction nets generalizing tries with
  | nil => simp [pure, Except.pure]
  | cons net nets ih =>
    have hnet := (h net List.mem_cons_self).newIpPrefix_eq
    have hnets : ∀ net ∈ nets, net.Valid := fun net' hnet' =>
      h net' (List.mem_cons_of_mem net hnet')
    rw [List.foldlM_cons]
    cases haddr : net.addr with
    | v4 ip =>
      have hpush : pushPrefix tries net = .ok (tries.1 ++ [net.leadingBits], tries.2) := by
        rw [pushPrefix, haddr, hnet]
      have hv4 : net.isV4 = true := by rw [IpNet.isV4, haddr]
      rw [hpush]
      change nets.foldlM pushPrefix (tries.1 ++ [net.leadingBits], tries.2) = _
      rw [ih hnets, List.filter_cons_of_pos hv4, List.filter_cons_of_neg (by simp [hv4]),
        List.map_cons, List.append_assoc]
      rfl
    | v6 ip =>
      have hpush : pushPrefix tries net = .ok (tries.1, tries.2 ++ [net.leadingBits]) := by
        rw [pushPrefix, haddr, hnet]
      have hv4 : net.isV4 = false := by rw [IpNet.isV4, haddr]
      rw [hpush]
      change nets.foldlM pushPrefix (tries.1, tries.2 ++ [net.leadingBits]) = _
      rw [ih hnets, List.filter_cons_of_neg (by simp [hv4]),
        List.filter_cons_of_pos (by simp [hv4]), List.map_cons, List.append_assoc]
      rfl

/-- The tries hold the prefixes of the networks of their family. -/
theorem buildIpTries_eq_ok {nets : List IpNet} (h : ∀ net ∈ nets, net.Valid) :
    buildIpTries nets = .ok (⟨(nets.filter IpNet.isV4).map IpNet.leadingBits⟩,
      ⟨(nets.filter fun net => !net.isV4).map IpNet.leadingBits⟩) := by
  rw [buildIpTries, foldlM_pushPrefix h]
  rfl

/-! ### Membership -/

namespace Routing

/-- The length of the longest match is zero only if that of every match is. -/
theorem length_foldl_longest_ne_zero_iff (l : List IpPrefix) (best : IpPrefix) :
    (l.foldl (fun best p => if best.length < p.length then p else best) best).length ≠ 0 ↔
      best.length ≠ 0 ∨ ∃ p ∈ l, p.length ≠ 0 := by
  induction l generalizing best with
  | nil => simp
  | cons p l ih =>
    rw [List.foldl_cons, ih, List.exists_mem_cons_iff, ← or_assoc]
    refine or_congr_left ?_
    split_ifs with hlt
    · omega
    · omega

/-- Membership by the length of the longest match: some prefix matches that is not the root. -/
theorem length_lookup_ne_zero_iff {trie : RTrieSet} {addr : List Bool} :
    (trie.lookup addr).length ≠ 0 ↔ ∃ p ∈ trie.prefixes, p.length ≠ 0 ∧ p <+: addr := by
  rw [RTrieSet.lookup, length_foldl_longest_ne_zero_iff]
  simp only [List.length_nil, ne_eq, not_true_eq_false, false_or, List.mem_filter,
    List.isPrefixOf_iff_prefix]
  constructor
  · rintro ⟨p, ⟨hp, hmatch⟩, hlength⟩
    exact ⟨p, hp, hlength, hmatch⟩
  · rintro ⟨p, hp, hlength, hmatch⟩
    exact ⟨p, ⟨hp, hmatch⟩, hlength⟩

/-- A type of tries that keeps the promise of `iptrie`. A prefix that is not longer than the address
is made of its leading bits; of the prefixes that the trie is made of and the root, a lookup returns
the longest one that matches. -/
structure LawfulTrie (T : Type) where
  newPrefix : List Bool → ℕ → Option IpPrefix
  newPrefix_isSome : ∀ bits len, (newPrefix bits len).isSome = true ↔ len ≤ bits.length
  length_newPrefix : ∀ bits len p, newPrefix bits len = some p → p.length = len
  newPrefix_isPrefix : ∀ bits len p, newPrefix bits len = some p → p <+: bits
  fromIter : List IpPrefix → T
  lookup : T → List Bool → IpPrefix
  lookup_mem : ∀ ps addr, lookup (fromIter ps) addr ∈ [] :: ps
  lookup_isPrefix : ∀ ps addr, lookup (fromIter ps) addr <+: addr
  length_le_lookup : ∀ ps addr, ∀ p ∈ ps, p <+: addr →
    p.length ≤ (lookup (fromIter ps) addr).length

/-- The longest of a list, or the first one. -/
theorem foldl_longest_mem (l : List IpPrefix) (best : IpPrefix) :
    l.foldl (fun best p => if best.length < p.length then p else best) best ∈ best :: l := by
  induction l generalizing best with
  | nil => exact List.mem_cons_self
  | cons p l ih =>
    rw [List.foldl_cons]
    split_ifs with hlt
    · exact List.mem_cons_of_mem best (ih p)
    · exact List.cons_subset_cons best (List.subset_cons_self p l) (ih best)

theorem length_le_foldl_longest (l : List IpPrefix) (best : IpPrefix) :
    ∀ p ∈ best :: l, p.length ≤
      (l.foldl (fun best p => if best.length < p.length then p else best) best).length := by
  induction l generalizing best with
  | nil => simp
  | cons q l ih =>
    intro p hp
    rw [List.foldl_cons]
    split_ifs with hlt
    · rcases List.mem_cons.mp hp with rfl | hp
      · exact hlt.le.trans (ih q q List.mem_cons_self)
      · exact ih q p hp
    · rcases List.mem_cons.mp hp with rfl | hp
      · exact ih p p List.mem_cons_self
      · rcases List.mem_cons.mp hp with rfl | hp
        · exact (not_lt.mp hlt).trans (ih best best List.mem_cons_self)
        · exact ih best p (List.mem_cons_of_mem best hp)

namespace RTrieSet

variable (trie : RTrieSet) (addr : List Bool)

theorem lookup_mem : trie.lookup addr ∈ [] :: trie.prefixes :=
  List.cons_subset_cons [] (List.filter_subset_self _) (foldl_longest_mem _ _)

theorem lookup_isPrefix : trie.lookup addr <+: addr := by
  rcases List.mem_cons.mp (foldl_longest_mem (trie.prefixes.filter fun p => p.isPrefixOf addr) [])
    with hroot | hmem
  · rw [lookup, hroot]
    exact List.nil_prefix
  · exact List.isPrefixOf_iff_prefix.mp (List.mem_filter.mp hmem).2

theorem length_le_lookup {p : IpPrefix} (hp : p ∈ trie.prefixes) (hmatch : p <+: addr) :
    p.length ≤ (trie.lookup addr).length :=
  length_le_foldl_longest _ _ p (List.mem_cons_of_mem _
    (List.mem_filter.mpr ⟨hp, List.isPrefixOf_iff_prefix.mpr hmatch⟩))

end RTrieSet

/-- An `RTrieSet` keeps the promise. -/
def lawfulTrie : LawfulTrie RTrieSet where
  newPrefix := newIpPrefix
  newPrefix_isSome bits len := by
    unfold newIpPrefix
    split_ifs with hlen
    · exact iff_of_true rfl hlen
    · exact iff_of_false Bool.false_ne_true hlen
  length_newPrefix bits len p hp := by
    unfold newIpPrefix at hp
    split_ifs at hp with hlen
    rw [← Option.some.inj hp, List.length_take, min_eq_left hlen]
  newPrefix_isPrefix bits len p hp := by
    unfold newIpPrefix at hp
    split_ifs at hp
    exact Option.some.inj hp ▸ List.take_prefix len bits
  fromIter := RTrieSet.mk
  lookup := RTrieSet.lookup
  lookup_mem ps addr := RTrieSet.lookup_mem ⟨ps⟩ addr
  lookup_isPrefix ps addr := RTrieSet.lookup_isPrefix ⟨ps⟩ addr
  length_le_lookup ps addr _ hp hmatch := RTrieSet.length_le_lookup ⟨ps⟩ addr hp hmatch

/-- **Prefixes are determined.** -/
theorem LawfulTrie.newPrefix_eq {T : Type} (trie : LawfulTrie T) (bits : List Bool) (len : ℕ) :
    trie.newPrefix bits len = newIpPrefix bits len := by
  have hsome := trie.newPrefix_isSome bits len
  rw [newIpPrefix]
  split_ifs with hlen
  · obtain ⟨p, hp⟩ := Option.isSome_iff_exists.mp (hsome.mpr hlen)
    have hmatch := List.prefix_iff_eq_take.mp (trie.newPrefix_isPrefix bits len p hp)
    rw [hp, hmatch, trie.length_newPrefix bits len p hp]
  · exact Option.not_isSome_iff_eq_none.mp fun h => hlen (hsome.mp h)

/-- **Lookups are determined.** Every trie that keeps the promise finds what an `RTrieSet` with the
same prefixes finds. -/
theorem LawfulTrie.lookup_eq {T : Type} (trie : LawfulTrie T) (ps : List IpPrefix)
    (addr : List Bool) :
    trie.lookup (trie.fromIter ps) addr = (RTrieSet.mk ps).lookup addr := by
  have hmatch := trie.lookup_isPrefix ps addr
  have hmatch' := (RTrieSet.mk ps).lookup_isPrefix addr
  -- each of the two is a candidate for the other
  have hle : (trie.lookup (trie.fromIter ps) addr).length ≤
      ((RTrieSet.mk ps).lookup addr).length := by
    rcases List.mem_cons.mp (trie.lookup_mem ps addr) with hroot | hmem
    · rw [hroot]
      exact Nat.zero_le _
    · exact (RTrieSet.mk ps).length_le_lookup addr hmem hmatch
  have hge : ((RTrieSet.mk ps).lookup addr).length ≤
      (trie.lookup (trie.fromIter ps) addr).length := by
    rcases List.mem_cons.mp ((RTrieSet.mk ps).lookup_mem addr) with hroot | hmem
    · rw [hroot]
      exact Nat.zero_le _
    · exact trie.length_le_lookup ps addr _ hmem hmatch'
  exact (List.prefix_of_prefix_length_le hmatch hmatch' hle).eq_of_length (le_antisymm hle hge)

end Routing

open ClientCidrRoutes

theorem IpNet.contains_iff {net : IpNet} {ip : IpAddr} : net.contains ip = true ↔
    sameFamily ip net = true ∧
      (addrBits net.addr.octets).take net.prefixLen = (addrBits ip.octets).take net.prefixLen := by
  obtain ⟨addr, prefixLen⟩ := net
  cases addr with
  | v4 a => cases ip <;> simp [contains, sameFamily, IpAddr.octets]
  | v6 a => cases ip <;> simp [contains, sameFamily, IpAddr.octets]

/-- A network contains an address of its family exactly if its prefix matches. -/
theorem IpNet.Valid.contains_iff_prefix {net : IpNet} (h : net.Valid) {ip : IpAddr}
    (hfamily : sameFamily ip net = true) :
    net.contains ip = true ↔ net.leadingBits <+: addrBits ip.octets := by
  rw [IpNet.contains_iff, and_iff_right hfamily, List.prefix_iff_eq_take, h.length_leadingBits]
  rfl

/-- `IpNet::broadcast`, by its bits: those of the address, with the bits of the host set. -/
def IpNet.broadcastBits (net : IpNet) : List Bool :=
  net.leadingBits ++ List.replicate (net.addr.bitLen - net.prefixLen) true

/-- A function that keeps the promise of `ipnet`: a network contains the addresses of its family
that lie between `IpNet::network` and `IpNet::broadcast`. -/
structure LawfulContains where
  contains : IpNet → IpAddr → Bool
  contains_iff : ∀ net ip, net.Valid → (contains net ip = true ↔ sameFamily ip net = true ∧
    net.networkBits ≤ addrBits ip.octets ∧ addrBits ip.octets ≤ net.broadcastBits)

theorem bitLen_of_sameFamily {net : IpNet} {ip : IpAddr} (h : sameFamily ip net = true) :
    ip.bitLen = net.addr.bitLen := by
  obtain ⟨addr, prefixLen⟩ := net
  cases addr <;> cases ip <;> first | rfl | cases h

/-- A network contains the addresses of its family between its first and its last one. -/
theorem IpNet.Valid.contains_iff_between {net : IpNet} (h : net.Valid) {ip : IpAddr} :
    net.contains ip = true ↔ sameFamily ip net = true ∧
      net.networkBits ≤ addrBits ip.octets ∧ addrBits ip.octets ≤ net.broadcastBits := by
  by_cases hfamily : sameFamily ip net = true
  · have hlength : (addrBits ip.octets).length =
        net.leadingBits.length + (net.addr.bitLen - net.prefixLen) := by
      rw [length_addrBits_octets, bitLen_of_sameFamily hfamily, h.length_leadingBits]
      exact (Nat.add_sub_cancel' h).symm
    rw [and_iff_right hfamily, h.contains_iff_prefix hfamily, prefix_iff_between hlength]
    rfl
  · exact iff_of_false (fun hcontains => hfamily (sameFamily_of_contains hcontains))
      fun hboth => hfamily hboth.1

/-- `IpNet.contains` keeps the promise. -/
def lawfulContains : LawfulContains where
  contains := IpNet.contains
  contains_iff _ _ h := h.contains_iff_between

/-- **The addresses of a network are determined.** -/
theorem LawfulContains.contains_eq (lawful : LawfulContains) {net : IpNet} (h : net.Valid)
    (ip : IpAddr) : lawful.contains net ip = net.contains ip := by
  rw [Bool.eq_iff_iff, lawful.contains_iff net ip h, h.contains_iff_between]

/-- The trie of the family of an address finds it exactly if a network contains it that has a length
other than zero. -/
theorem length_lookup_family_ne_zero_iff {nets : List IpNet} (h : ∀ net ∈ nets, net.Valid)
    (ip : IpAddr) :
    ((RTrieSet.mk ((nets.filter (sameFamily ip)).map IpNet.leadingBits)).lookup
        (addrBits ip.octets)).length ≠ 0 ↔
      ∃ net ∈ nets, net.prefixLen ≠ 0 ∧ net.contains ip = true := by
  rw [length_lookup_ne_zero_iff]
  constructor
  · rintro ⟨p, hp, hlength, hmatch⟩
    obtain ⟨net, hnet, rfl⟩ := List.mem_map.mp hp
    obtain ⟨hmem, hfamily⟩ := List.mem_filter.mp hnet
    have hvalid := h net hmem
    rw [hvalid.length_leadingBits] at hlength
    exact ⟨net, hmem, hlength, (hvalid.contains_iff_prefix hfamily).mpr hmatch⟩
  · rintro ⟨net, hmem, hlength, hcontains⟩
    have hvalid := h net hmem
    have hfamily := sameFamily_of_contains hcontains
    refine ⟨net.leadingBits, ?_, ?_, (hvalid.contains_iff_prefix hfamily).mp hcontains⟩
    · exact List.mem_map_of_mem (List.mem_filter.mpr ⟨hmem, hfamily⟩)
    · rwa [hvalid.length_leadingBits]

/-- **Over any packages** that keep their promises, the trie of the prefixes of a family finds an
address exactly if a network contains it that has a length other than zero. -/
theorem Routing.LawfulTrie.length_lookup_ne_zero_iff {T : Type} (trie : LawfulTrie T)
    (lawful : LawfulContains) {nets : List IpNet} (h : ∀ net ∈ nets, net.Valid) (ip : IpAddr) :
    (trie.lookup
        (trie.fromIter ((nets.filter (sameFamily ip)).filterMap fun net =>
          trie.newPrefix net.networkBits net.prefixLen))
        (addrBits ip.octets)).length ≠ 0 ↔
      ∃ net ∈ nets, net.prefixLen ≠ 0 ∧ lawful.contains net ip = true := by
  have hprefixes : ((nets.filter (sameFamily ip)).filterMap fun net =>
      trie.newPrefix net.networkBits net.prefixLen) =
      (nets.filter (sameFamily ip)).map IpNet.leadingBits := by
    rw [← List.filterMap_eq_map]
    refine List.filterMap_congr fun net hnet => ?_
    rw [trie.newPrefix_eq, (h net (List.mem_of_mem_filter hnet)).newIpPrefix_eq]
    rfl
  rw [hprefixes, trie.lookup_eq, length_lookup_family_ne_zero_iff h]
  refine exists_congr fun net => and_congr_right fun hnet => ?_
  rw [lawful.contains_eq (h net hnet)]

theorem inIpSets_buildIpTries_iff {nets : List IpNet} (h : ∀ net ∈ nets, net.Valid) (ip : IpAddr) :
    AppState.inIpSets ⟨(nets.filter IpNet.isV4).map IpNet.leadingBits⟩
        ⟨(nets.filter fun net => !net.isV4).map IpNet.leadingBits⟩ ip = true ↔
      ∃ net ∈ nets, net.prefixLen ≠ 0 ∧ net.contains ip = true := by
  rw [← length_lookup_family_ne_zero_iff h ip]
  cases ip with
  | v4 ip =>
    have hfamily : sameFamily (.v4 ip) = IpNet.isV4 := by
      funext net
      cases haddr : net.addr <;> simp [sameFamily, IpNet.isV4, haddr]
    rw [hfamily]
    exact bne_iff_ne
  | v6 ip =>
    have hfamily : sameFamily (.v6 ip) = fun net => !net.isV4 := by
      funext net
      cases haddr : net.addr <;> simp [sameFamily, IpNet.isV4, haddr]
    rw [hfamily]
    exact bne_iff_ne

/-- The networks of a parsed list are valid if those that the parser of networks returns are. -/
theorem valid_of_parseIpNetList {parseIpNet : Str → Option IpNet}
    (hparser : ∀ s net, parseIpNet s = some net → net.Valid) {list : List Str} {nets : List IpNet}
    (h : parseIpNetList parseIpNet list = .ok nets) : ∀ net ∈ nets, net.Valid := by
  intro net hnet
  obtain ⟨raw, -, hraw⟩ := (mem_of_mapM_eq_ok h).mp hnet
  unfold parseIpNetEntry at hraw
  dsimp only at hraw
  split_ifs at hraw
  split at hraw
  · rename_i hparse
    cases hraw
    exact hparser _ _ hparse
  · split at hraw
    · cases hraw
      exact le_rfl
    · cases hraw
      exact le_rfl
    · cases hraw

/-- **Forced addresses.** Of the lists that `parse_ip_net_list` accepts, the tries are built, and an
address is found in them exactly if one of the networks contains it; with one exception, the
addresses that no network contains but those of length zero. -/
theorem forcedIps_exact_iff {parseIpNet : Str → Option IpNet}
    (hparser : ∀ s net, parseIpNet s = some net → net.Valid) {list : List Str} {nets : List IpNet}
    (h : parseIpNetList parseIpNet list = .ok nets) :
    ∃ v4 v6, buildIpTries nets = .ok (v4, v6) ∧ ∀ ip,
      ((AppState.inIpSets v4 v6 ip = true ↔ ∃ net ∈ nets, net.contains ip = true) ↔
        ((∃ net ∈ nets, net.prefixLen = 0 ∧ sameFamily ip net = true) →
          ∃ net ∈ nets, net.prefixLen ≠ 0 ∧ net.contains ip = true)) := by
  have hvalid := valid_of_parseIpNetList hparser h
  refine ⟨_, _, buildIpTries_eq_ok hvalid, fun ip => ?_⟩
  rw [inIpSets_buildIpTries_iff hvalid]
  constructor
  · rintro hexact ⟨net, hnet, hzero, hfamily⟩
    refine hexact.mpr ⟨net, hnet, IpNet.contains_iff.mpr ⟨hfamily, ?_⟩⟩
    rw [hzero, List.take_zero, List.take_zero]
  · intro hcovered
    constructor
    · rintro ⟨net, hnet, -, hcontains⟩
      exact ⟨net, hnet, hcontains⟩
    · rintro ⟨net, hnet, hcontains⟩
      by_cases hzero : net.prefixLen = 0
      · exact hcovered ⟨net, hnet, hzero, sameFamily_of_contains hcontains⟩
      · exact ⟨net, hnet, hzero, hcontains⟩

/-- A parser that knows the network `10.0.0.0/8` only. -/
def parseTenNet (s : Str) : Option IpNet :=
  if s = [0x31, 0x30, 0x2e, 0x30, 0x2e, 0x30, 0x2e, 0x30, 0x2f, 0x38] then
    some ⟨.v4 ⟨10, 0, 0, 0⟩, 8⟩
  else none

/-- The address `10.1.2.3` is found in the tries of `10.0.0.0/8` and `192.168.0.1`. -/
theorem forcedIps_exact_tenNet : ∃ v4 v6,
    buildIpTries [⟨.v4 ⟨10, 0, 0, 0⟩, 8⟩, ⟨.v4 ⟨192, 168, 0, 1⟩, 32⟩] = .ok (v4, v6) ∧
    AppState.inIpSets v4 v6 (.v4 ⟨10, 1, 2, 3⟩) = true := by
  have hparser : ∀ s net, parseTenNet s = some net → net.Valid := by
    intro s net h
    unfold parseTenNet at h
    split_ifs at h
    obtain rfl := Option.some.inj h
    show 8 ≤ 32
    omega
  have hlist : (parseIpNetList parseTenNet
      [[0x31, 0x30, 0x2e, 0x30, 0x2e, 0x30, 0x2e, 0x30, 0x2f, 0x38],
        [0x31, 0x39, 0x32, 0x2e, 0x31, 0x36, 0x38, 0x2e, 0x30, 0x2e, 0x31]]).toOption =
      some [⟨.v4 ⟨10, 0, 0, 0⟩, 8⟩, ⟨.v4 ⟨192, 168, 0, 1⟩, 32⟩] := by
    decide +kernel
  obtain ⟨v4, v6, hbuild, hexact⟩ :=
    forcedIps_exact_iff hparser (toOption_eq_some_iff.mp hlist)
  refine ⟨v4, v6, hbuild, ((hexact (.v4 ⟨10, 1, 2, 3⟩)).mpr ?_).mpr ?_⟩
  · rintro -
    exact ⟨_, List.mem_cons_self, by decide +kernel, by decide +kernel⟩
  · exact ⟨_, List.mem_cons_self, by decide +kernel⟩

/-- The network `0.0.0.0/0` contains `1.2.3.4`, and the tries of it do not. -/
theorem not_forcedIps_exact_defaultNet : ∃ nets v4 v6,
    parseIpNetList exampleParseIpNet
      [[0x30, 0x2e, 0x30, 0x2e, 0x30, 0x2e, 0x30, 0x2f, 0x30]] = .ok nets ∧
    buildIpTries nets = .ok (v4, v6) ∧
    (∃ net ∈ nets, net.contains (.v4 ⟨1, 2, 3, 4⟩) = true) ∧
    AppState.inIpSets v4 v6 (.v4 ⟨1, 2, 3, 4⟩) = false := by
  have hlist : (parseIpNetList exampleParseIpNet
      [[0x30, 0x2e, 0x30, 0x2e, 0x30, 0x2e, 0x30, 0x2f, 0x30]]).toOption =
      some [⟨.v4 ⟨0, 0, 0, 0⟩, 0⟩] := by
    decide +kernel
  have htries : (buildIpTries [⟨.v4 ⟨0, 0, 0, 0⟩, 0⟩]).toOption.map
      (fun tries => AppState.inIpSets tries.1 tries.2 (.v4 ⟨1, 2, 3, 4⟩)) = some false := by
    decide +kernel
  obtain ⟨⟨v4, v6⟩, hbuild, hfound⟩ := Option.map_eq_some_iff.mp htries
  exact ⟨_, v4, v6, toOption_eq_some_iff.mp hlist, toOption_eq_some_iff.mp hbuild,
    ⟨_, List.mem_cons_self, by decide +kernel⟩, hfound⟩

end XtpRs
