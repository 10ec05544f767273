import XtpRs.Config.Validate
import XtpRs.Lib.Except
import XtpRs.Routing.Cidr
import XtpRs.Routing.Domain

/-!
# Route tables and upstream groups

`AppState::build` of `src/state.rs` turns three maps of the configuration into tables, and
`AppState::lookup_upstream_group` finds the upstream group of a connection in them. The tables are
filled in the order in which the maps are iterated.

The reference says which groups a connection may get in terms of the maps alone: it leaves open
which of several keys that denote the same network, or the same pattern, is taken.

## Main definitions

* `Config.buildRoutes`, `Routes.lookupUpstreamGroup`: the code.
* `Config.UpstreamGroup`: the reference.

## Main results

* `Config.upstreamGroup_lookupUpstreamGroup`: the code meets the reference.
-/

namespace XtpRs

open Lib Routing

/-! ### The code -/

/-- `DomainRouteTable`. -/
structure DomainRouteTable where
  exact : HashMap Str Str := ∅
  suffixes : List (Str × Str) := []

/-- `DomainRouteTable::lookup`. -/
def DomainRouteTable.lookup (table : DomainRouteTable) (domain : Str) : Option Str :=
  let domain := canonicalDomain domain
  match table.exact.lookup domain with
  | some group => some group
  | none => (table.suffixes.find? fun e => domainMatchesSuffix domain e.1).map Prod.snd

/-- The failures of the tables in `AppState::build`. -/
inductive RouteError
  | clientRoutesIp (ip : Str)
  | clientDomainRoutesIp (ip : Str)
  | emptySuffixPattern (pattern ip : Str)
  | emptyExactPattern (pattern ip : Str)
  | clientDstIpRoutesIp (ip : Str)
  | clientDstIpRoutesDst (dst ip : Str)
  deriving DecidableEq, Repr

/-- One pattern of `client_domain_routes`. -/
def insertPattern (ip : Str) (table : DomainRouteTable) (e : Str × Str) :
    Except RouteError DomainRouteTable :=
  match e.1 with
  | 0x2e :: stripped =>
    let suffixNorm := canonicalDomain stripped
    if suffixNorm.isEmpty then .error (.emptySuffixPattern e.1 ip)
    else .ok { table with suffixes := table.suffixes ++ [(suffixNorm, e.2)] }
  | _ =>
    let exactNorm := canonicalDomain e.1
    if exactNorm.isEmpty then .error (.emptyExactPattern e.1 ip)
    else .ok { table with exact := table.exact.insert exactNorm e.2 }

/-- The table of one entry of `client_domain_routes`. -/
def buildDomainRouteTable (ip : Str) (domainMap : HashMap Str Str) :
    Except RouteError DomainRouteTable := do
  let table ← domainMap.toList.foldlM (insertPattern ip) {}
  return { table with suffixes := sortByKeyDesc (fun e => e.1.length) table.suffixes }

variable (parseIpNet : Str → Option IpNet)

/-- One entry of a map by network: its key is parsed, then the table of its value is built. -/
def buildEntry {V T : Type} (invalid : Str → RouteError) (inner : Str → V → Except RouteError T)
    (e : Str × V) : Except RouteError (IpNet × T) :=
  match parseIpOrCidr parseIpNet e.1 with
  | none => .error (invalid e.1)
  | some net =>
    match inner e.1 e.2 with
    | .error error => .error error
    | .ok value => .ok (net, value)

/-- A map by network: its entries are inserted in the order of iteration. -/
def buildCidrRoutes {V T : Type} (invalid : Str → RouteError)
    (inner : Str → V → Except RouteError T) (map : HashMap Str V) :
    Except RouteError (ClientCidrRoutes T) := do
  let entries ← map.toList.mapM (buildEntry parseIpNet invalid inner)
  return .ofEntries entries

/-- A map from networks to groups. -/
def buildIpRoutes (invalid : Str → RouteError) (map : HashMap Str Str) :
    Except RouteError (ClientCidrRoutes Str) :=
  buildCidrRoutes parseIpNet invalid (fun _ group => .ok group) map

/-- The tables of an `AppRuntime`. -/
structure Routes where
  clientRoutes : ClientCidrRoutes Str
  clientDomainRoutes : ClientCidrRoutes DomainRouteTable
  clientDstIpRoutes : ClientCidrRoutes (ClientCidrRoutes Str)

/-- The part of `AppState::build` that builds the tables. -/
def Config.buildRoutes (c : Config) : Except RouteError Routes := do
  let clientRoutes ← buildIpRoutes parseIpNet .clientRoutesIp c.clientRoutes
  let clientDomainRoutes ←
    buildCidrRoutes parseIpNet .clientDomainRoutesIp buildDomainRouteTable c.clientDomainRoutes
  let clientDstIpRoutes ←
    buildCidrRoutes parseIpNet .clientDstIpRoutesIp
      (fun ip dstMap => buildIpRoutes parseIpNet (.clientDstIpRoutesDst · ip) dstMap)
      c.clientDstIpRoutes
  return { clientRoutes, clientDomainRoutes, clientDstIpRoutes }

/-- `AppState::lookup_upstream_group`. -/
def Routes.lookupUpstreamGroup (routes : Routes) (clientIp dstIp : IpAddr) (domain : Option Str) :
    Str :=
  match routes.clientDstIpRoutes.findMapMatching clientIp fun table => table.lookup dstIp with
  | some group => group
  | none =>
    match domain with
    | some domain =>
      ((routes.clientDomainRoutes.findMapMatching clientIp fun table => table.lookup domain) <|>
        routes.clientRoutes.lookup clientIp).getD defaultGroup
    | none => (routes.clientRoutes.lookup clientIp).getD defaultGroup

/-! ### The reference -/

/-- A pattern of `client_domain_routes`, in canonical form. -/
inductive Pattern
  | exact (domain : Str)
  | suffix (domain : Str)
  deriving DecidableEq

/-- `.example.com` is a suffix, `example.com` an exact domain. -/
def Pattern.ofKey : Str → Pattern
  | 0x2e :: stripped => suffix (canonicalDomain stripped)
  | key => exact (canonicalDomain key)

/-- The text of a pattern. -/
def Pattern.text : Pattern → Str
  | exact domain => domain
  | suffix domain => domain

/-- The canonical domain is the suffix or ends in it behind a dot. -/
def EndsIn (domain suffix : Str) : Prop :=
  canonicalDomain domain = suffix ∨ (dot :: suffix) <:+ canonicalDomain domain

/-- A group for a domain: that of an exact pattern, and if there is none, that of a longest
suffix. -/
def DomainGroup (map : HashMap Str Str) (domain group : Str) : Prop :=
  (∃ key, map.lookup key = some group ∧ Pattern.ofKey key = .exact (canonicalDomain domain)) ∨
  (∀ key, Pattern.ofKey key = .exact (canonicalDomain domain) → map.lookup key = none) ∧
  ∃ key suffix, map.lookup key = some group ∧ Pattern.ofKey key = .suffix suffix ∧
    EndsIn domain suffix ∧
    ∀ key' suffix' group', map.lookup key' = some group' → Pattern.ofKey key' = .suffix suffix' →
      EndsIn domain suffix' → suffix'.length ≤ suffix.length

/-- A result for an address: one that the value of a longest network has, among the networks that
contain the address and whose values have a result. -/
def LongestMatch {V R : Type} (map : HashMap Str V) (ip : IpAddr) (result : V → R → Prop) (r : R) :
    Prop :=
  ∃ key value net, map.lookup key = some value ∧ parseIpOrCidr parseIpNet key = some net ∧
    net.contains ip = true ∧ result value r ∧
    ∀ key' value' net', map.lookup key' = some value' →
      parseIpOrCidr parseIpNet key' = some net' → net'.contains ip = true →
      (∃ r', result value' r') → net'.prefixLen ≤ net.prefixLen

namespace Config

variable (c : Config)

/-- A group by the client and the destination. -/
def DstGroup (clientIp dstIp : IpAddr) (group : Str) : Prop :=
  LongestMatch parseIpNet c.clientDstIpRoutes clientIp
    (fun dstMap group => LongestMatch parseIpNet dstMap dstIp Eq group) group

/-- A group by the client and the domain. -/
def ClientDomainGroup (clientIp : IpAddr) (domain group : Str) : Prop :=
  LongestMatch parseIpNet c.clientDomainRoutes clientIp
    (fun domainMap group => DomainGroup domainMap domain group) group

/-- A group by the client. -/
def ClientGroup (clientIp : IpAddr) (group : Str) : Prop :=
  LongestMatch parseIpNet c.clientRoutes clientIp Eq group

/-- The groups that a connection may get. -/
inductive UpstreamGroup (clientIp dstIp : IpAddr) (domain : Option Str) : Str → Prop
  | dst {group : Str} (h : c.DstGroup parseIpNet clientIp dstIp group) :
      UpstreamGroup clientIp dstIp domain group
  | domain {name group : Str} (hdst : ∀ g, ¬c.DstGroup parseIpNet clientIp dstIp g)
      (hname : domain = some name) (h : c.ClientDomainGroup parseIpNet clientIp name group) :
      UpstreamGroup clientIp dstIp domain group
  | client {group : Str} (hdst : ∀ g, ¬c.DstGroup parseIpNet clientIp dstIp g)
      (hdomain : ∀ name, domain = some name →
        ∀ g, ¬c.ClientDomainGroup parseIpNet clientIp name g)
      (h : c.ClientGroup parseIpNet clientIp group) : UpstreamGroup clientIp dstIp domain group
  | default (hdst : ∀ g, ¬c.DstGroup parseIpNet clientIp dstIp g)
      (hdomain : ∀ name, domain = some name →
        ∀ g, ¬c.ClientDomainGroup parseIpNet clientIp name g)
      (hclient : ∀ g, ¬c.ClientGroup parseIpNet clientIp g) :
      UpstreamGroup clientIp dstIp domain defaultGroup

end Config

/-! ### Tables by network -/

section Tables

variable {parseIpNet : Str → Option IpNet} {V T R : Type} {invalid : Str → RouteError}
  {inner : Str → V → Except RouteError T} {map : HashMap Str V} {routes : ClientCidrRoutes T}

theorem buildEntry_eq_ok_iff {e : Str × V} {net : IpNet} {t : T} :
    buildEntry parseIpNet invalid inner e = .ok (net, t) ↔
      parseIpOrCidr parseIpNet e.1 = some net ∧ inner e.1 e.2 = .ok t := by
  rw [buildEntry]
  cases parseIpOrCidr parseIpNet e.1 with
  | none => simp
  | some net' =>
    cases inner e.1 e.2 with
    | error err => simp
    | ok t' => simp

theorem buildCidrRoutes_eq_ok_iff :
    buildCidrRoutes parseIpNet invalid inner map = .ok routes ↔
      ∃ entries, map.toList.mapM (buildEntry parseIpNet invalid inner) = .ok entries ∧
        routes = .ofEntries entries := by
  rw [buildCidrRoutes, bind_eq_ok_iff]
  refine exists_congr fun entries => and_congr_right fun _ => ?_
  exact ⟨fun h => (Except.ok.inj h).symm, fun h => h ▸ rfl⟩

/-- A table is built if every key is a network and the table of every value is built. -/
theorem exists_buildCidrRoutes_iff :
    (∃ routes, buildCidrRoutes parseIpNet invalid inner map = .ok routes) ↔
      ∀ key value, map.lookup key = some value →
        (∃ net, parseIpOrCidr parseIpNet key = some net) ∧ ∃ t, inner key value = .ok t := by
  have hentries : (∃ routes, buildCidrRoutes parseIpNet invalid inner map = .ok routes) ↔
      ∃ entries, map.toList.mapM (buildEntry parseIpNet invalid inner) = .ok entries := by
    simp only [buildCidrRoutes_eq_ok_iff]
    exact ⟨fun ⟨_, entries, h, _⟩ => ⟨entries, h⟩, fun ⟨entries, h⟩ => ⟨_, entries, h, rfl⟩⟩
  rw [hentries, exists_mapM_eq_ok_iff, Prod.forall]
  refine forall₂_congr fun key value => ?_
  rw [HashMap.mem_toList, Prod.exists]
  refine imp_congr_right fun _ => ?_
  simp only [buildEntry_eq_ok_iff, exists_and_left, exists_and_right]

/-- The entries of a table are those of the map. -/
theorem mem_entries_iff {entries : List (IpNet × T)}
    (h : map.toList.mapM (buildEntry parseIpNet invalid inner) = .ok entries) {net : IpNet}
    {t : T} : (net, t) ∈ entries ↔ ∃ key value, map.lookup key = some value ∧
      parseIpOrCidr parseIpNet key = some net ∧ inner key value = .ok t := by
  rw [mem_of_mapM_eq_ok h]
  constructor
  · rintro ⟨⟨key, value⟩, hmem, he⟩
    exact ⟨key, value, (HashMap.mem_toList map).mp hmem, buildEntry_eq_ok_iff.mp he⟩
  · rintro ⟨key, value, hlookup, he⟩
    exact ⟨(key, value), (HashMap.mem_toList map).mpr hlookup, buildEntry_eq_ok_iff.mpr he⟩

/-- **Lookup in a table by network.** If the lookup in the table of a value chooses a result of the
value, then the lookup by an address chooses a result of a longest network. -/
theorem chooses_findMapMatching {f : T → Option R} {result : V → R → Prop}
    (hbuild : buildCidrRoutes parseIpNet invalid inner map = .ok routes)
    (hinner : ∀ key value t, inner key value = .ok t → Chooses (f t) (result value)) (ip : IpAddr) :
    Chooses (routes.findMapMatching ip f) (LongestMatch parseIpNet map ip result) := by
  obtain ⟨entries, hentries, rfl⟩ := buildCidrRoutes_eq_ok_iff.mp hbuild
  have hall : ∀ key value, map.lookup key = some value → ∃ net t, (net, t) ∈ entries ∧
      parseIpOrCidr parseIpNet key = some net ∧ inner key value = .ok t := by
    intro key value hlookup
    obtain ⟨⟨net, t⟩, he⟩ := exists_mapM_eq_ok_iff.mp ⟨entries, hentries⟩ (key, value)
      ((HashMap.mem_toList map).mpr hlookup)
    obtain ⟨hnet, ht⟩ := buildEntry_eq_ok_iff.mp he
    exact ⟨net, t, (mem_entries_iff hentries).mpr ⟨key, value, hlookup, hnet, ht⟩, hnet, ht⟩
  constructor
  · intro r hr
    obtain ⟨⟨net, t⟩, hf, hmem, ⟨hcontains, -⟩, hle⟩ :=
      ClientCidrRoutes.isBest_of_findMapMatching hr
    obtain ⟨key, value, hlookup, hnet, ht⟩ := (mem_entries_iff hentries).mp hmem
    refine ⟨key, value, net, hlookup, hnet, hcontains, (hinner key value t ht).of_some r hf, ?_⟩
    intro key' value' net' hlookup' hnet' hcontains' hresult'
    obtain ⟨net'', t', hmem', hnet'', ht'⟩ := hall key' value' hlookup'
    obtain rfl : net' = net'' := Option.some.inj (hnet'.symm.trans hnet'')
    exact hle (net', t') hmem' ⟨hcontains', (hinner key' value' t' ht').isSome_iff.mpr hresult'⟩
  · rintro hnone r ⟨key, value, net, hlookup, hnet, hcontains, hresult, -⟩
    obtain ⟨net', t, hmem, hnet', ht⟩ := hall key value hlookup
    obtain rfl : net = net' := Option.some.inj (hnet.symm.trans hnet')
    have hf : f t = none :=
      ClientCidrRoutes.findMapMatching_eq_none_iff.mp hnone (net, t) hmem hcontains
    exact (hinner key value t ht).of_none hf r hresult

theorem chooses_lookup_buildIpRoutes {map : HashMap Str Str} {routes : ClientCidrRoutes Str}
    (hbuild : buildIpRoutes parseIpNet invalid map = .ok routes) (ip : IpAddr) :
    Chooses (routes.lookup ip) (LongestMatch parseIpNet map ip Eq) := by
  rw [ClientCidrRoutes.lookup_eq_findMapMatching]
  refine chooses_findMapMatching hbuild (fun key value t ht => ?_) ip
  obtain rfl : value = t := Except.ok.inj ht
  exact ⟨fun r hr => Option.some.inj hr, fun hnone => by cases hnone⟩

end Tables

/-! ### Tables by domain -/

namespace DomainRouteTable

/-- The table with one more pattern. -/
def add (table : DomainRouteTable) (pattern : Pattern) (group : Str) : DomainRouteTable :=
  match pattern with
  | .exact domain => { table with exact := table.exact.insert domain group }
  | .suffix domain => { table with suffixes := table.suffixes ++ [(domain, group)] }

end DomainRouteTable

/-- The failure at a pattern without text. -/
def emptyPattern (ip key : Str) : RouteError :=
  match key with
  | 0x2e :: _ => .emptySuffixPattern key ip
  | _ => .emptyExactPattern key ip

theorem insertPattern_eq (ip : Str) : insertPattern ip = fun table e =>
    if (Pattern.ofKey e.1).text.isEmpty = true then .error (emptyPattern ip e.1)
    else .ok (table.add (Pattern.ofKey e.1) e.2) := by
  funext table e
  obtain ⟨key, group⟩ := e
  by_cases hkey : ∃ stripped, key = 0x2e :: stripped
  · obtain ⟨stripped, rfl⟩ := hkey
    rfl
  · have hne : ∀ stripped, key ≠ 0x2e :: stripped := fun stripped h => hkey ⟨stripped, h⟩
    have hofKey : Pattern.ofKey key = .exact (canonicalDomain key) := by
      rw [Pattern.ofKey]
      exact hne
    have herror : emptyPattern ip key = .emptyExactPattern key ip := by
      rw [emptyPattern]
      exact hne
    rw [hofKey, herror, insertPattern]
    split
    · rename_i stripped hstripped
      exact absurd hstripped (hne stripped)
    · rfl

/-- The exact domain of an entry, with its group. -/
def exactEntry (e : Str × Str) : Option (Str × Str) :=
  match Pattern.ofKey e.1 with
  | .exact domain => some (domain, e.2)
  | .suffix _ => none

/-- The suffix of an entry, with its group. -/
def suffixEntry (e : Str × Str) : Option (Str × Str) :=
  match Pattern.ofKey e.1 with
  | .exact _ => none
  | .suffix domain => some (domain, e.2)

theorem exactEntry_eq_some_iff {e : Str × Str} {domain group : Str} :
    exactEntry e = some (domain, group) ↔ Pattern.ofKey e.1 = .exact domain ∧ e.2 = group := by
  rw [exactEntry]
  cases Pattern.ofKey e.1 with
  | exact d => simp
  | suffix d => simp

theorem suffixEntry_eq_some_iff {e : Str × Str} {domain group : Str} :
    suffixEntry e = some (domain, group) ↔ Pattern.ofKey e.1 = .suffix domain ∧ e.2 = group := by
  rw [suffixEntry]
  cases Pattern.ofKey e.1 with
  | exact d => simp
  | suffix d => simp

/-- The table before its suffixes are sorted. -/
theorem foldl_add (l : List (Str × Str)) (table : DomainRouteTable) :
    l.foldl (fun table e => table.add (Pattern.ofKey e.1) e.2) table =
      { exact := (l.filterMap exactEntry).foldl (fun m e => m.insert e.1 e.2) table.exact
        suffixes := table.suffixes ++ l.filterMap suffixEntry } := by
  induction l generalizing table with
  | nil => simp
  | cons e l ih =>
    rw [List.foldl_cons, ih, List.filterMap_cons, List.filterMap_cons, exactEntry, suffixEntry]
    cases Pattern.ofKey e.1 with
    | exact d => rfl
    | suffix d => simp [DomainRouteTable.add]

/-- The table of a map without empty patterns. -/
def domainRouteTable (map : HashMap Str Str) : DomainRouteTable where
  exact := (map.toList.filterMap exactEntry).foldl (fun m e => m.insert e.1 e.2) ∅
  suffixes := sortByKeyDesc (fun e => e.1.length) (map.toList.filterMap suffixEntry)

/-- A table is built if no pattern is empty. -/
theorem buildDomainRouteTable_eq_ok_iff {ip : Str} {map : HashMap Str Str}
    {table : DomainRouteTable} : buildDomainRouteTable ip map = .ok table ↔
      (∀ key group, map.lookup key = some group → (Pattern.ofKey key).text ≠ []) ∧
        table = domainRouteTable map := by
  have hkeys : (∀ e ∈ map.toList, ¬(Pattern.ofKey e.1).text.isEmpty = true) ↔
      ∀ key group, map.lookup key = some group → (Pattern.ofKey key).text ≠ [] := by
    rw [Prod.forall]
    refine forall₂_congr fun key group => ?_
    rw [HashMap.mem_toList, List.isEmpty_iff]
  rw [buildDomainRouteTable, bind_eq_ok_iff, insertPattern_eq, ← hkeys]
  simp only [foldlM_ite_eq_ok_iff, and_assoc, exists_and_left]
  refine and_congr_right fun _ => ?_
  rw [exists_eq_left, foldl_add, List.nil_append]
  exact ⟨fun h => (Except.ok.inj h).symm, fun h => h ▸ rfl⟩

/-- The group of a suffix that the domain ends in. -/
def suffixResult (domain : Str) (e : Str × Str) : Option Str :=
  if domainMatchesSuffix (canonicalDomain domain) e.1 then some e.2 else none

theorem DomainRouteTable.lookup_eq (table : DomainRouteTable) (domain : Str) :
    table.lookup domain = (table.exact.lookup (canonicalDomain domain)).or
      (table.suffixes.findSome? (suffixResult domain)) := by
  rw [lookup, map_find?_eq_findSome?]
  cases table.exact.lookup (canonicalDomain domain) with
  | none => rfl
  | some group => rfl

section Domain

variable {map : HashMap Str Str} {domain : Str}

theorem Pattern.canonicalDomain_text (key : Str) :
    canonicalDomain (Pattern.ofKey key).text = (Pattern.ofKey key).text := by
  unfold ofKey
  split
  · exact canonicalDomain_idem _
  · exact canonicalDomain_idem _

theorem domainMatchesSuffix_ofKey_iff {key suffix : Str} (h : Pattern.ofKey key = .suffix suffix) :
    domainMatchesSuffix (canonicalDomain domain) suffix = true ↔ EndsIn domain suffix := by
  have hsuffix := Pattern.canonicalDomain_text key
  rw [h, Pattern.text] at hsuffix
  rw [domainMatchesSuffix_iff, canonicalDomain_idem, hsuffix, EndsIn]

/-- The entries of the table that come from keys with one pattern. -/
theorem mem_filterMap_entry_iff {entry : Str × Str → Option (Str × Str)} {text group : Str}
    {pattern : Pattern}
    (hentry : ∀ e, entry e = some (text, group) ↔ Pattern.ofKey e.1 = pattern ∧ e.2 = group) :
    (text, group) ∈ map.toList.filterMap entry ↔
      ∃ key, map.lookup key = some group ∧ Pattern.ofKey key = pattern := by
  simp only [List.mem_filterMap, hentry, Prod.exists, HashMap.mem_toList]
  constructor
  · rintro ⟨key, group', hlookup, hkey, rfl⟩
    exact ⟨key, hlookup, hkey⟩
  · rintro ⟨key, hlookup, hkey⟩
    exact ⟨key, group, hlookup, hkey, rfl⟩

theorem mem_exactEntries_iff {name group : Str} :
    (name, group) ∈ map.toList.filterMap exactEntry ↔
      ∃ key, map.lookup key = some group ∧ Pattern.ofKey key = .exact name :=
  mem_filterMap_entry_iff fun _ => exactEntry_eq_some_iff

theorem mem_suffixEntries_iff {suffix group : Str} :
    (suffix, group) ∈ map.toList.filterMap suffixEntry ↔
      ∃ key, map.lookup key = some group ∧ Pattern.ofKey key = .suffix suffix :=
  mem_filterMap_entry_iff fun _ => suffixEntry_eq_some_iff

/-- There is no exact group if no key is the exact domain. -/
theorem lookup_exact_eq_none_iff : (domainRouteTable map).exact.lookup (canonicalDomain domain) =
    none ↔ ∀ key, Pattern.ofKey key = .exact (canonicalDomain domain) → map.lookup key = none := by
  rw [domainRouteTable, HashMap.lookup_foldl_insert_eq_none_iff]
  constructor
  · rintro ⟨-, hne⟩ key hkey
    by_contra hsome
    obtain ⟨group, hgroup⟩ := Option.ne_none_iff_exists'.mp hsome
    exact hne (canonicalDomain domain, group) (mem_exactEntries_iff.mpr ⟨key, hgroup, hkey⟩) rfl
  · rintro hnone
    refine ⟨rfl, fun e he heq => ?_⟩
    obtain ⟨key, hlookup, hkey⟩ := mem_exactEntries_iff.mp (show (e.1, e.2) ∈ _ from he)
    rw [hnone key (heq ▸ hkey)] at hlookup
    cases hlookup

/-- **Lookup of a domain.** -/
theorem chooses_lookup_domainRouteTable (map : HashMap Str Str) (domain : Str) :
    Chooses ((domainRouteTable map).lookup domain) (DomainGroup map domain) := by
  rw [DomainRouteTable.lookup_eq]
  cases hexact : (domainRouteTable map).exact.lookup (canonicalDomain domain) with
  | some group =>
    refine ⟨fun r hr => .inl ?_, fun hnone => by cases hnone⟩
    obtain rfl : group = r := Option.some.inj hr
    obtain hmem | hnone := HashMap.mem_of_lookup_foldl_insert _ hexact
    · exact mem_exactEntries_iff.mp hmem
    · cases hnone
  | none =>
    have hnone := lookup_exact_eq_none_iff.mp hexact
    rw [Option.none_or]
    constructor
    · intro r hr
      obtain ⟨⟨suffix, group⟩, hresult, hmem, hkind, hle⟩ := isBest_of_findSome? hr
      obtain ⟨key, hlookup, hkey⟩ := mem_suffixEntries_iff.mp hmem
      rw [suffixResult] at hresult
      split_ifs at hresult with hmatches
      obtain rfl : group = r := Option.some.inj hresult
      refine .inr ⟨hnone, key, suffix, hlookup, hkey,
        (domainMatchesSuffix_ofKey_iff hkey).mp hmatches, ?_⟩
      intro key' suffix' group' hlookup' hkey' hends'
      refine hle (suffix', group') (mem_suffixEntries_iff.mpr ⟨key', hlookup', hkey'⟩) ?_
      rw [suffixResult, if_pos ((domainMatchesSuffix_ofKey_iff hkey').mpr hends')]
      rfl
    · rintro hsearch r (⟨key, hlookup, hkey⟩ | ⟨-, key, suffix, hlookup, hkey, hends, -⟩)
      · rw [hnone key hkey] at hlookup
        cases hlookup
      · have hresult := findSome?_eq_none_iff.mp hsearch (suffix, r)
          (mem_suffixEntries_iff.mpr ⟨key, hlookup, hkey⟩)
        rw [suffixResult, if_pos ((domainMatchesSuffix_ofKey_iff hkey).mpr hends)] at hresult
        cases hresult

end Domain

/-! ### Upstream groups -/

namespace Config

variable {parseIpNet : Str → Option IpNet} {c : Config} {routes : Routes}

theorem buildRoutes_eq_ok_iff : c.buildRoutes parseIpNet = .ok routes ↔
    buildIpRoutes parseIpNet .clientRoutesIp c.clientRoutes = .ok routes.clientRoutes ∧
    buildCidrRoutes parseIpNet .clientDomainRoutesIp buildDomainRouteTable c.clientDomainRoutes =
      .ok routes.clientDomainRoutes ∧
    buildCidrRoutes parseIpNet .clientDstIpRoutesIp
      (fun ip dstMap => buildIpRoutes parseIpNet (.clientDstIpRoutesDst · ip) dstMap)
      c.clientDstIpRoutes = .ok routes.clientDstIpRoutes := by
  simp only [buildRoutes, bind_eq_ok_iff]
  constructor
  · rintro ⟨clientRoutes, hclient, domainRoutes, hdomain, dstRoutes, hdst, h⟩
    cases h
    exact ⟨hclient, hdomain, hdst⟩
  · rintro ⟨hclient, hdomain, hdst⟩
    exact ⟨_, hclient, _, hdomain, _, hdst, rfl⟩

/-- Choices by destination, by domain and by client, tried one after the other. -/
theorem upstreamGroup_of_chooses {clientIp dstIp : IpAddr} {domain dst client : Option Str}
    {byDomain : Str → Option Str} (hdst : Chooses dst (c.DstGroup parseIpNet clientIp dstIp))
    (hdomain : ∀ name, Chooses (byDomain name) (c.ClientDomainGroup parseIpNet clientIp name))
    (hclient : Chooses client (c.ClientGroup parseIpNet clientIp)) :
    c.UpstreamGroup parseIpNet clientIp dstIp domain
      ((dst.or ((domain.bind byDomain).or client)).getD defaultGroup) := by
  cases dst with
  | some group => exact .dst (hdst.of_some group rfl)
  | none =>
    have hdstNone := hdst.of_none rfl
    rw [Option.none_or]
    cases hbyDomain : domain.bind byDomain with
    | some group =>
      obtain ⟨name, rfl, hname⟩ := Option.bind_eq_some_iff.mp hbyDomain
      exact .domain hdstNone rfl ((hdomain name).of_some group hname)
    | none =>
      have hdomainNone : ∀ name, domain = some name →
          ∀ g, ¬c.ClientDomainGroup parseIpNet clientIp name g := by
        rintro name rfl
        exact (hdomain name).of_none hbyDomain
      rw [Option.none_or]
      cases client with
      | some group => exact .client hdstNone hdomainNone (hclient.of_some group rfl)
      | none => exact .default hdstNone hdomainNone (hclient.of_none rfl)

variable (hbuild : c.buildRoutes parseIpNet = .ok routes) (clientIp : IpAddr)
include hbuild

theorem chooses_dstGroup (dstIp : IpAddr) :
    Chooses (routes.clientDstIpRoutes.findMapMatching clientIp fun table => table.lookup dstIp)
      (c.DstGroup parseIpNet clientIp dstIp) := by
  refine chooses_findMapMatching (buildRoutes_eq_ok_iff.mp hbuild).2.2 (fun key map t ht => ?_) _
  exact chooses_lookup_buildIpRoutes ht dstIp

theorem chooses_clientDomainGroup (domain : Str) :
    Chooses (routes.clientDomainRoutes.findMapMatching clientIp fun table => table.lookup domain)
      (c.ClientDomainGroup parseIpNet clientIp domain) := by
  refine chooses_findMapMatching (buildRoutes_eq_ok_iff.mp hbuild).2.1 (fun key map t ht => ?_) _
  obtain ⟨-, rfl⟩ := buildDomainRouteTable_eq_ok_iff.mp ht
  exact chooses_lookup_domainRouteTable map domain

theorem chooses_clientGroup :
    Chooses (routes.clientRoutes.lookup clientIp) (c.ClientGroup parseIpNet clientIp) :=
  chooses_lookup_buildIpRoutes (buildRoutes_eq_ok_iff.mp hbuild).1 clientIp

omit hbuild in
/-- The lookup as one chain of fallbacks. -/
theorem lookupUpstreamGroup_eq (dstIp : IpAddr) (domain : Option Str) :
    routes.lookupUpstreamGroup clientIp dstIp domain =
      ((routes.clientDstIpRoutes.findMapMatching clientIp fun table => table.lookup dstIp).or
        ((domain.bind fun name => routes.clientDomainRoutes.findMapMatching clientIp fun table =>
          table.lookup name).or (routes.clientRoutes.lookup clientIp))).getD defaultGroup := by
  unfold Routes.lookupUpstreamGroup
  cases routes.clientDstIpRoutes.findMapMatching clientIp fun table => table.lookup dstIp with
  | some group => rfl
  | none =>
    cases domain with
    | none => rfl
    | some name =>
      rw [Option.none_or, Option.bind_some, Option.or_eq_orElse, Option.orElse_eq_orElse]

/-- **The upstream group of a connection.** The lookup gives a group that the maps of the
configuration allow. -/
theorem upstreamGroup_lookupUpstreamGroup (dstIp : IpAddr) (domain : Option Str) :
    c.UpstreamGroup parseIpNet clientIp dstIp domain
      (routes.lookupUpstreamGroup clientIp dstIp domain) := by
  rw [lookupUpstreamGroup_eq]
  exact upstreamGroup_of_chooses (chooses_dstGroup hbuild clientIp dstIp)
    (chooses_clientDomainGroup hbuild clientIp) (chooses_clientGroup hbuild clientIp)

end Config

/-! ### A client network inside another -/

/-- Networks in the notation of `IpNet::from_str`: an address, a slash and the length of the
prefix. -/
def exampleParseIpNet : Str → Option IpNet :=
  parseWith fun s =>
    (do
      let (ip, s) ← readIpv4Addr s
      let ((), s) ← readGivenChar 0x2f s
      let (prefixLen, s) ← readNumber 10 (some 2) true 33 s
      return (⟨.v4 ip, prefixLen⟩, s)) <|>
    (do
      let (ip, s) ← readIpv6Addr s
      let ((), s) ← readGivenChar 0x2f s
      let (prefixLen, s) ← readNumber 10 (some 3) true 129 s
      return (⟨.v6 ip, prefixLen⟩, s))

/-- The client `10.0.0.7` has a table of its own for `a.cn`, and its network `10.0.0.0/24` one for
the suffix `.b.cn`. -/
def nestedTables : Config where
  upstream := []
  clientDomainRoutes :=
    (AList.insert [0x31, 0x30, 0x2e, 0x30, 0x2e, 0x30, 0x2e, 0x30, 0x2f, 0x32, 0x34]
      (AList.insert [0x2e, 0x62, 0x2e, 0x63, 0x6e] [0x77] ∅) ∅).insert
      [0x31, 0x30, 0x2e, 0x30, 0x2e, 0x30, 0x2e, 0x37]
      (AList.insert [0x61, 0x2e, 0x63, 0x6e] [0x61] ∅)

/-- For `x.B.cn` the client `10.0.0.7` falls back to the table of its network. -/
theorem upstreamGroup_nestedTables : ∃ routes,
    nestedTables.buildRoutes exampleParseIpNet = .ok routes ∧
    routes.lookupUpstreamGroup (.v4 ⟨10, 0, 0, 7⟩) (.v4 ⟨1, 1, 1, 1⟩)
      (some [0x78, 0x2e, 0x42, 0x2e, 0x63, 0x6e]) = [0x77] ∧
    nestedTables.UpstreamGroup exampleParseIpNet (.v4 ⟨10, 0, 0, 7⟩) (.v4 ⟨1, 1, 1, 1⟩)
      (some [0x78, 0x2e, 0x42, 0x2e, 0x63, 0x6e]) [0x77] := by
  have hrun : (nestedTables.buildRoutes exampleParseIpNet).toOption.map
      (fun routes => routes.lookupUpstreamGroup (.v4 ⟨10, 0, 0, 7⟩) (.v4 ⟨1, 1, 1, 1⟩)
        (some [0x78, 0x2e, 0x42, 0x2e, 0x63, 0x6e])) = some [0x77] := by
    decide +kernel
  obtain ⟨routes, hroutes, hgroup⟩ := Option.map_eq_some_iff.mp hrun
  have hbuild := toOption_eq_some_iff.mp hroutes
  refine ⟨routes, hbuild, hgroup, ?_⟩
  have hallowed := Config.upstreamGroup_lookupUpstreamGroup hbuild (.v4 ⟨10, 0, 0, 7⟩)
    (.v4 ⟨1, 1, 1, 1⟩) (some [0x78, 0x2e, 0x42, 0x2e, 0x63, 0x6e])
  rwa [hgroup] at hallowed

end XtpRs
