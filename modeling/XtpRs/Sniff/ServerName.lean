import XtpRs.Sniff.Hosts

/-!
# The grammar of a ClientHello

`parse_sni_from_client_hello_body` of `src/sniff/tls_common.rs` accepts the bodies of one grammar:
vectors with their lengths in front, one inside the other. `ClientHelloBody` is the grammar and
`ClientHelloBody.bytes` its rendering; a body is accepted exactly if it is a rendering, followed by
anything, whose host names are valid and of which the last one is not hidden.

## Main definitions

* `Vec`: bytes with their length in front.
* `NameEntry`, `HelloExtension`, `ClientHelloBody`: the grammar.

## Main results

* `parseSni_eq_ok_iff_accepts`: what the parser accepts.
-/

namespace XtpRs.Sniff

open Lib Routing

/-! ### Vectors -/

theorem beNat_append_singleton (b : Bytes) (x : UInt8) :
    beNat (b ++ [x]) = beNat b * 256 + x.toNat := by
  rw [beNat, List.foldl_append]
  rfl

theorem beNat_lt (b : Bytes) : beNat b < 256 ^ b.length := by
  induction b using List.reverseRecOn with
  | nil => exact Nat.one_pos
  | append_singleton b x ih =>
    have hx := x.toNat_lt
    rw [beNat_append_singleton, List.length_append, List.length_singleton, Nat.pow_succ]
    omega

/-- Bytes are determined by their number and their value. -/
theorem beBytes_beNat (b : Bytes) : beBytes b.length (beNat b) = b := by
  induction b using List.reverseRecOn with
  | nil => rfl
  | append_singleton b x ih =>
    have hx := x.toNat_lt
    have hdiv : (beNat b * 256 + x.toNat) / 256 = beNat b := by omega
    have hlow : UInt8.ofNat (beNat b * 256 + x.toNat) = x := by
      apply UInt8.toNat_inj.mp
      rw [UInt8.toNat_ofNat']
      omega
    rw [beNat_append_singleton, List.length_append, List.length_singleton, beBytes, hdiv, ih, hlow]

/-- Bytes whose number fits into `k` bytes. -/
structure Vec (k : ℕ) where
  data : Bytes
  length_lt : data.length < 256 ^ k

namespace Vec

variable {k : ℕ} {buf t : Bytes} {off : ℕ}

/-- The length and the bytes. -/
def bytes (v : Vec k) : Bytes := beBytes k v.data.length ++ v.data

theorem length_bytes (v : Vec k) : v.bytes.length = k + v.data.length := by
  rw [bytes, List.length_append, length_beBytes]

/-- Reading a vector that lies ahead. -/
theorem read {v : Vec k} (h : Remaining buf off (v.bytes ++ t)) :
    beNat (slice buf off (off + k)) = v.data.length ∧
      slice buf (off + k) (off + k + v.data.length) = v.data ∧
      Remaining buf (off + k + v.data.length) t := by
  rw [bytes, List.append_assoc] at h
  have hlength := h.slice_self
  have hdata := h.advance
  rw [length_beBytes] at hlength hdata
  exact ⟨by rw [hlength, beNat_beBytes v.length_lt], hdata.slice_self, hdata.advance⟩

/-- A vector lies ahead if its length and as many bytes do. -/
theorem exists_ahead (buf : Bytes) (off k : ℕ)
    (h : off + k + beNat (slice buf off (off + k)) ≤ buf.length) :
    ∃ v : Vec k, v.data.length = beNat (slice buf off (off + k)) ∧
      Remaining buf off (v.bytes ++ buf.drop (off + k + v.data.length)) := by
  set n := beNat (slice buf off (off + k)) with hn
  have hk : (slice buf off (off + k)).length = k := by
    rw [length_slice (by omega)]
    omega
  have hlength : (slice buf (off + k) (off + k + n)).length = n := by
    rw [length_slice h]
    omega
  have hlt : n < 256 ^ k := by
    have hlt := beNat_lt (slice buf off (off + k))
    rwa [hk, ← hn] at hlt
  refine ⟨⟨slice buf (off + k) (off + k + n), by rwa [hlength]⟩, hlength, by omega, ?_⟩
  have hbytes : beBytes k n = slice buf off (off + k) := by
    have hbytes := beBytes_beNat (slice buf off (off + k))
    rwa [hk, ← hn] at hbytes
  show buf.drop off = beBytes k (slice buf (off + k) (off + k + n)).length ++
    slice buf (off + k) (off + k + n) ++
      buf.drop (off + k + (slice buf (off + k) (off + k + n)).length)
  rw [hlength, hbytes, List.append_assoc, ← drop_eq_slice_append buf (by omega),
    ← drop_eq_slice_append buf (by omega)]

end Vec

theorem beU16_slice {buf : Bytes} {a : ℕ} (h : a + 2 ≤ buf.length) :
    beU16 (slice buf a (a + 2)) = .ok (beNat (slice buf a (a + 2))) := by
  have hlength : (slice buf a (a + 2)).length = 2 := by
    rw [length_slice h]
    omega
  rw [beU16, if_neg (by omega), List.take_of_length_le hlength.le]

/-! ### The grammar -/

/-- An entry of a `server_name` extension. -/
structure NameEntry where
  nameType : UInt8
  name : Vec 2

namespace NameEntry

def bytes (e : NameEntry) : Bytes := e.nameType :: e.name.bytes

theorem length_bytes (e : NameEntry) : e.bytes.length = 3 + e.name.data.length := by
  rw [bytes, List.length_cons, e.name.length_bytes]
  omega

/-- The name of a `host_name` entry. -/
def hostName? (e : NameEntry) : Option Str :=
  if e.nameType = 0 then some e.name.data else none

end NameEntry

/-- The `host_name` entries of a list, in their order. -/
def hostNames (names : List NameEntry) : List Str :=
  names.filterMap NameEntry.hostName?

/-- The data of a `server_name` extension: a list of entries with its length in front. -/
def nameList (names : List NameEntry) (h : (names.flatMap NameEntry.bytes).length < 256 ^ 2) :
    Vec 2 :=
  ⟨names.flatMap NameEntry.bytes, h⟩

/-- An extension. -/
inductive HelloExtension
  | serverName (names : List NameEntry)
      (h : 2 + (names.flatMap NameEntry.bytes).length < 256 ^ 2)
  | other (type : ℕ) (data : Vec 2) (h : type ≠ 0 ∧ type < 256 ^ 2)

namespace HelloExtension

/-- The type of an extension. -/
def type : HelloExtension → ℕ
  | serverName _ _ => 0
  | other type _ _ => type

/-- The data of an extension. -/
def data : HelloExtension → Vec 2
  | serverName names h =>
    ⟨(nameList names (by omega)).bytes, by rw [Vec.length_bytes]; exact h⟩
  | other _ data _ => data

def bytes (e : HelloExtension) : Bytes := beBytes 2 e.type ++ e.data.bytes

/-- The `host_name` entries of an extension. -/
def hostNames : HelloExtension → List Str
  | serverName names _ => Sniff.hostNames names
  | other _ _ _ => []

theorem type_lt (e : HelloExtension) : e.type < 256 ^ 2 := by
  cases e with
  | serverName names h => exact Nat.pow_pos (by omega)
  | other type data h => exact h.2

theorem length_bytes (e : HelloExtension) : e.bytes.length = 4 + e.data.data.length := by
  rw [bytes, List.length_append, length_beBytes, Vec.length_bytes]
  omega

end HelloExtension

/-- The fields of a ClientHello in front of its extensions. -/
structure HelloFront where
  version : Bytes
  random : Bytes
  sessionId : Vec 1
  cipherSuites : Vec 2
  compressionMethods : Vec 1
  length_version : version.length = 2
  length_random : random.length = 32
  cipherSuites_ne_nil : cipherSuites.data ≠ []
  even_cipherSuites : cipherSuites.data.length % 2 = 0
  compressionMethods_ne_nil : compressionMethods.data ≠ []

def HelloFront.bytes (front : HelloFront) : Bytes :=
  front.version ++ front.random ++ front.sessionId.bytes ++ front.cipherSuites.bytes ++
    front.compressionMethods.bytes

/-- The body of a ClientHello. -/
structure ClientHelloBody where
  front : HelloFront
  extensions : List HelloExtension
  length_extensions : (extensions.flatMap HelloExtension.bytes).length < 256 ^ 2

namespace ClientHelloBody

variable (hello : ClientHelloBody)

/-- The extensions with their length in front. -/
def extensionBlock : Vec 2 :=
  ⟨hello.extensions.flatMap HelloExtension.bytes, hello.length_extensions⟩

def bytes : Bytes := hello.front.bytes ++ hello.extensionBlock.bytes

/-- The `host_name` entries of all extensions, in their order. -/
def hostNames : List Str := hello.extensions.flatMap HelloExtension.hostNames

end ClientHelloBody

/-! ### Name lists -/

/-- The host after a list of host names, with the host found before. -/
def lastHost (found : Option Str) (hosts : List Str) : Option Str :=
  (hosts.getLast?.map (List.map toAsciiLowercase)).or found

theorem lastHost_append (found : Option Str) (hosts hosts' : List Str) :
    lastHost found (hosts ++ hosts') = lastHost (lastHost found hosts) hosts' := by
  rw [lastHost, lastHost, lastHost, List.getLast?_append]
  cases hosts'.getLast? <;> rfl

/-- All of the names are valid. -/
def AllValid (hosts : List Str) : Prop :=
  ∀ host ∈ hosts, isValidSniHostname host = true

theorem allValid_nil : AllValid [] :=
  fun _ h => absurd h List.not_mem_nil

/-- A round of the loop over the names takes an entry from what lies ahead. -/
theorem serverNameLoop_cons {ext t : Bytes} {p : ℕ} {e : NameEntry}
    (h : Remaining ext p (e.bytes ++ t)) (fuel : ℕ) (found : Option Str) :
    Remaining ext (p + e.bytes.length) t ∧
    serverNameLoop ext (fuel + 1) p found =
      if ∀ host, e.hostName? = some host → isValidSniHostname host = true then
        serverNameLoop ext fuel (p + e.bytes.length) (lastHost found e.hostName?.toList)
      else .error .invalidHostname := by
  have hadvance := h.advance
  refine ⟨hadvance, ?_⟩
  have hle := hadvance.le
  rw [e.length_bytes] at hle hadvance ⊢
  rw [NameEntry.bytes, List.cons_append] at h
  obtain ⟨hnat, hname, -⟩ := Vec.read h.advance_cons
  have htype : ext.getD p 0 = e.nameType := by
    rw [List.getD_eq_getElem?_getD, h.getElem?_head]
    rfl
  rw [serverNameLoop, if_neg (by omega)]
  replace hname : slice ext (p + 3) (p + 3 + e.name.data.length) = e.name.data := hname
  have hnext : p + 3 + e.name.data.length = p + (3 + e.name.data.length) := by omega
  show (beU16 (slice ext (p + 1) (p + 1 + 2)) >>= fun nameLen => _) = _
  rw [beU16_slice (by omega), hnat]
  show (if ext.length < p + 1 + 2 + e.name.data.length then _ else _) = _
  rw [if_neg (by omega)]
  rw [hname, htype, hnext, NameEntry.hostName?]
  by_cases hzero : e.nameType = 0
  · rw [if_pos hzero, if_pos hzero]
    by_cases hvalid : isValidSniHostname e.name.data = true
    · have hlower := (isValidSniHostname_map_toAsciiLowercase e.name.data).trans hvalid
      rw [fromUtf8_of_valid hvalid]
      dsimp only
      rw [if_pos hlower, if_pos (by rintro host ⟨rfl⟩; exact hvalid)]
      rfl
    · rw [if_neg (fun hall => hvalid (hall _ rfl))]
      cases hutf8 : fromUtf8 e.name.data with
      | none => rfl
      | some name =>
        have hname : name = e.name.data := by
          rw [fromUtf8] at hutf8
          split_ifs at hutf8
          exact (Option.some.inj hutf8).symm
        dsimp only
        rw [hname, isValidSniHostname_map_toAsciiLowercase, if_neg hvalid]
  · rw [if_neg hzero, if_neg hzero, if_pos (by rintro host ⟨⟩)]
    rfl

/-- An entry that is cut off. -/
theorem serverNameLoop_cut {ext : Bytes} {p : ℕ} (h : p + 3 ≤ ext.length)
    (hcut : ext.length < p + 1 + 2 + beNat (slice ext (p + 1) (p + 1 + 2))) (fuel : ℕ)
    (found : Option Str) : serverNameLoop ext (fuel + 1) p found = .error .parseError := by
  rw [serverNameLoop, if_neg (by omega)]
  show (beU16 (slice ext (p + 1) (p + 1 + 2)) >>= fun nameLen => _) = _
  rw [beU16_slice (by omega)]
  exact if_pos hcut

theorem hostNames_cons (e : NameEntry) (names : List NameEntry) :
    hostNames (e :: names) = e.hostName?.toList ++ hostNames names := by
  rw [hostNames, hostNames, List.filterMap_cons]
  cases e.hostName? <;> rfl

theorem allValid_cons_iff {e : NameEntry} {names : List NameEntry} :
    AllValid (hostNames (e :: names)) ↔
      (∀ host, e.hostName? = some host → isValidSniHostname host = true) ∧
        AllValid (hostNames names) := by
  rw [hostNames_cons, AllValid, List.forall_mem_append]
  simp only [Option.mem_toList]
  rfl

/-- What a list of names that the loop accepts looks like. -/
theorem exists_of_serverNameLoop {ext : Bytes} {fuel p : ℕ} {found found' : Option Str}
    (hp : p ≤ ext.length) (h : serverNameLoop ext fuel p found = .ok (ext.length, found')) :
    ∃ names, Remaining ext p (names.flatMap NameEntry.bytes) ∧ AllValid (hostNames names) ∧
      found' = lastHost found (hostNames names) := by
  induction fuel generalizing p found with
  | zero =>
    cases h
    exact ⟨[], ⟨le_rfl, List.drop_length⟩, allValid_nil, rfl⟩
  | succ fuel ih =>
    by_cases hend : ext.length < p + 3
    · rw [serverNameLoop, if_pos hend] at h
      cases h
      exact ⟨[], ⟨le_rfl, List.drop_length⟩, allValid_nil, rfl⟩
    by_cases hcut : ext.length < p + 1 + 2 + beNat (slice ext (p + 1) (p + 1 + 2))
    · rw [serverNameLoop_cut (by omega) hcut] at h
      cases h
    obtain ⟨nameType, rest, hhead⟩ := Remaining.exists_cons (show p < ext.length by omega)
    obtain ⟨name, -, hname⟩ := Vec.exists_ahead _ _ _ (not_lt.mp hcut)
    obtain rfl := hhead.advance_cons.unique hname
    obtain ⟨hrest, hround⟩ :=
      serverNameLoop_cons (e := ⟨nameType, name⟩) hhead fuel found
    rw [hround] at h
    split_ifs at h with hvalid
    obtain ⟨names, hnames, hall, rfl⟩ := ih hrest.le h
    refine ⟨⟨nameType, name⟩ :: names, ⟨hp, ?_⟩, allValid_cons_iff.mpr ⟨hvalid, hall⟩, ?_⟩
    · rw [hhead.eq, List.flatMap_cons, ← hnames.unique hrest]
      rfl
    · rw [hostNames_cons, lastHost_append]

/-- A list of valid names is accepted. -/
theorem serverNameLoop_of_names {ext : Bytes} {names : List NameEntry} {fuel p : ℕ}
    (found : Option Str) (h : Remaining ext p (names.flatMap NameEntry.bytes))
    (hvalid : AllValid (hostNames names)) (hfuel : names.length ≤ fuel) :
    serverNameLoop ext fuel p found = .ok (ext.length, lastHost found (hostNames names)) := by
  induction names generalizing fuel p found with
  | nil =>
    have hend : p = ext.length := h.length_eq
    rw [hend]
    cases fuel with
    | zero => rfl
    | succ fuel => exact if_pos (by omega)
  | cons e names ih =>
    obtain ⟨fuel, rfl⟩ : ∃ n, fuel = n + 1 := ⟨fuel - 1, by rw [List.length_cons] at hfuel; omega⟩
    rw [List.flatMap_cons] at h
    obtain ⟨hrest, hround⟩ := serverNameLoop_cons h fuel found
    rw [allValid_cons_iff] at hvalid
    rw [hround, if_pos hvalid.1, ih _ hrest hvalid.2 (by rw [List.length_cons] at hfuel; omega),
      hostNames_cons, lastHost_append]

theorem length_le_length_flatMap (names : List NameEntry) :
    names.length ≤ (names.flatMap NameEntry.bytes).length := by
  induction names with
  | nil => exact le_rfl
  | cons e names ih =>
    have hlength := e.length_bytes
    rw [List.flatMap_cons, List.length_append, List.length_cons]
    omega

theorem parseServerName_eq_ok_iff_loop {ext : Bytes} {found found' : Option Str} :
    parseServerName ext found = .ok found' ↔
      2 + beNat (slice ext 0 (0 + 2)) = ext.length ∧
        serverNameLoop ext ext.length 2 found = .ok (ext.length, found') := by
  by_cases hlen : ext.length < 2
  · have hne : 2 + beNat (slice ext 0 (0 + 2)) ≠ ext.length := by omega
    simp [parseServerName, hlen, hne]
  · have hread : parseServerName ext found =
        if beNat (slice ext 0 (0 + 2)) + 2 ≠ ext.length then .error .parseError
        else serverNameLoop ext ext.length 2 found >>= fun r =>
          if r.1 ≠ ext.length then .error .parseError else .ok r.2 := by
      rw [parseServerName, if_neg hlen]
      show (beU16 (slice ext 0 (0 + 2)) >>= fun listLen => _) = _
      rw [beU16_slice (by omega)]
      rfl
    rw [hread, Nat.add_comm 2]
    split_ifs with hlist
    · simp [hlist]
    · rw [not_not] at hlist
      rw [bind_eq_ok_iff, and_iff_right hlist]
      constructor
      · rintro ⟨⟨p, found⟩, hloop, h⟩
        dsimp only at h
        split_ifs at h with hend
        rw [not_not] at hend
        cases h
        rw [hloop, hend]
      · intro hloop
        exact ⟨_, hloop, if_neg (not_not.mpr rfl)⟩

/-- The data that `parse_sni_from_client_hello_body` accepts in a `server_name` extension. -/
theorem parseServerName_eq_ok_iff {ext : Bytes} {found found' : Option Str} :
    parseServerName ext found = .ok found' ↔
      ∃ names h, ext = (nameList names h).bytes ∧ AllValid (hostNames names) ∧
        found' = lastHost found (hostNames names) := by
  rw [parseServerName_eq_ok_iff_loop]
  constructor
  · rintro ⟨hlist, hloop⟩
    obtain ⟨names, hnames, hvalid, hfound⟩ := exists_of_serverNameLoop (by omega) hloop
    have hle : 0 + 2 + beNat (slice ext 0 (0 + 2)) ≤ ext.length := by omega
    obtain ⟨v, -, hahead⟩ := Vec.exists_ahead _ _ _ hle
    obtain ⟨hnat, hdata, hrest⟩ := Vec.read hahead
    have hend : ext.drop (0 + 2 + v.data.length) = [] := by
      rw [List.drop_eq_nil_iff]
      omega
    have hv : v.data = names.flatMap NameEntry.bytes := by
      rw [← hdata, ← hnames.eq, drop_eq_slice_append ext (a := 2) (b := 0 + 2 + v.data.length)
        (by omega), hend, List.append_nil]
    have hlength : (names.flatMap NameEntry.bytes).length < 256 ^ 2 := by
      rw [← hv]
      exact v.length_lt
    refine ⟨names, hlength, ?_, hvalid, hfound⟩
    have hext := hahead.eq
    rw [hend, List.append_nil, List.drop_zero, Vec.bytes, hv] at hext
    exact hext
  · rintro ⟨names, hlength, rfl, hvalid, rfl⟩
    have hahead : Remaining (nameList names hlength).bytes 0
        ((nameList names hlength).bytes ++ []) := by
      rw [List.append_nil]
      exact Remaining.start _
    obtain ⟨hnat, -, -⟩ := Vec.read hahead
    have hlen := (nameList names hlength).length_bytes
    refine ⟨by omega, serverNameLoop_of_names found ?_ hvalid ?_⟩
    · have hdata := (Remaining.start (nameList names hlength).bytes).advance
        (s := beBytes 2 (nameList names hlength).data.length)
      rw [length_beBytes] at hdata
      exact hdata
    · have hle := length_le_length_flatMap names
      have hdata : (nameList names hlength).data = names.flatMap NameEntry.bytes := rfl
      rw [hdata] at hlen
      omega

/-! ### Extensions -/

/-- A round of the loop over the extensions. -/
theorem extensionLoop_step {body : Bytes} {extEnd off : ℕ} (hend : extEnd ≤ body.length)
    (hoff : off + 4 ≤ extEnd) (fuel : ℕ) (sawEch : Bool) (found : Option Str) :
    extensionLoop body extEnd (fuel + 1) off sawEch found =
      let type := beNat (slice body off (off + 2))
      let off' := off + 2 + 2 + beNat (slice body (off + 2) (off + 2 + 2))
      if extEnd < off' then .error .parseError
      else if type = 0xfe0d ∨ type = 0xff07 then extensionLoop body extEnd fuel off' true found
      else if type = 0 then
        parseServerName (slice body (off + 2 + 2) off') found >>= fun found =>
          extensionLoop body extEnd fuel off' sawEch found
      else extensionLoop body extEnd fuel off' sawEch found := by
  rw [extensionLoop, if_neg (by omega)]
  show (beU16 (slice body off (off + 2)) >>= fun extType => _) = _
  rw [beU16_slice (by omega)]
  show (beU16 (slice body (off + 2) (off + 2 + 2)) >>= fun extLen => _) = _
  rw [beU16_slice (by omega)]
  rfl

theorem lastHost_nil (found : Option Str) : lastHost found [] = found := rfl

/-- The data of a `server_name` extension. -/
theorem HelloExtension.parseServerName_data (e : HelloExtension) (htype : e.type = 0)
    (hvalid : AllValid e.hostNames) (found : Option Str) :
    parseServerName e.data.data found = .ok (lastHost found e.hostNames) := by
  cases e with
  | serverName names h =>
    exact parseServerName_eq_ok_iff.mpr ⟨names, by omega, rfl, hvalid, rfl⟩
  | other type data h => exact absurd htype h.1

theorem HelloExtension.hostNames_of_type_ne (e : HelloExtension) (htype : e.type ≠ 0) :
    e.hostNames = [] := by
  cases e with
  | serverName names h => exact absurd rfl htype
  | other type data h => rfl

/-- A round passes an extension that lies ahead. -/
theorem extensionLoop_cons {body t : Bytes} {extEnd off : ℕ} {e : HelloExtension}
    (h : Remaining body off (e.bytes ++ t)) (hend : extEnd ≤ body.length)
    (hoff : off + e.bytes.length ≤ extEnd) (hvalid : AllValid e.hostNames) (fuel : ℕ)
    (sawEch : Bool) (found : Option Str) :
    ∃ sawEch', extensionLoop body extEnd (fuel + 1) off sawEch found =
      extensionLoop body extEnd fuel (off + e.bytes.length) sawEch'
        (lastHost found e.hostNames) := by
  rw [e.length_bytes] at hoff ⊢
  rw [HelloExtension.bytes, List.append_assoc] at h
  have htype := h.slice_self
  have hdata := h.advance
  rw [length_beBytes] at htype hdata
  obtain ⟨hnat, hslice, -⟩ := Vec.read hdata
  have hnext : off + 2 + 2 + e.data.data.length = off + (4 + e.data.data.length) := by omega
  rw [extensionLoop_step hend (by omega), htype, beNat_beBytes e.type_lt, hnat]
  dsimp only
  rw [if_neg (by omega), hslice, hnext]
  by_cases hzero : e.type = 0
  · refine ⟨sawEch, ?_⟩
    rw [hzero, if_neg (by omega), if_pos rfl, e.parseServerName_data hzero hvalid]
    rfl
  · rw [if_neg hzero, e.hostNames_of_type_ne hzero, lastHost_nil]
    split_ifs
    · exact ⟨true, rfl⟩
    · exact ⟨sawEch, rfl⟩

/-- A round that does not fail passes an extension. -/
theorem exists_of_extensionLoop_succ {body : Bytes} {extEnd off fuel : ℕ} {sawEch : Bool}
    {found : Option Str} {r : ℕ × Bool × Option Str} (hend : extEnd ≤ body.length)
    (hoff : off + 4 ≤ extEnd) (h : extensionLoop body extEnd (fuel + 1) off sawEch found = .ok r) :
    ∃ (e : HelloExtension) (sawEch' : Bool),
      Remaining body off (e.bytes ++ body.drop (off + e.bytes.length)) ∧
      off + e.bytes.length ≤ extEnd ∧ AllValid e.hostNames ∧
      extensionLoop body extEnd fuel (off + e.bytes.length) sawEch' (lastHost found e.hostNames) =
        .ok r := by
  rw [extensionLoop_step hend hoff] at h
  dsimp only at h
  split at h
  · cases h
  rename_i hdata
  obtain ⟨data, hlength, hahead⟩ := Vec.exists_ahead body (off + 2) 2 (by omega)
  have htypeLength : (slice body off (off + 2)).length = 2 := by
    rw [length_slice (by omega)]
    omega
  have htype : beBytes 2 (beNat (slice body off (off + 2))) = slice body off (off + 2) := by
    have hbytes := beBytes_beNat (slice body off (off + 2))
    rwa [htypeLength] at hbytes
  have hlt : beNat (slice body off (off + 2)) < 256 ^ 2 := by
    have hlt := beNat_lt (slice body off (off + 2))
    rwa [htypeLength] at hlt
  obtain ⟨-, hslice, -⟩ := Vec.read hahead
  -- what an extension of this type and this data looks like from the offset on
  have hrender : ∀ e : HelloExtension, e.type = beNat (slice body off (off + 2)) → e.data = data →
      off + e.bytes.length = off + 2 + 2 + beNat (slice body (off + 2) (off + 2 + 2)) ∧
        Remaining body off (e.bytes ++ body.drop (off + e.bytes.length)) := by
    intro e he hedata
    have hlen : off + e.bytes.length = off + 2 + 2 + data.data.length := by
      rw [e.length_bytes, hedata]
      omega
    refine ⟨by rw [hlen, hlength], by omega, ?_⟩
    rw [hlen, HelloExtension.bytes, he, htype, hedata, List.append_assoc, ← hahead.eq]
    exact drop_eq_slice_append body (by omega)
  rw [← hlength] at h hrender hdata
  by_cases hzero : beNat (slice body off (off + 2)) = 0
  · rw [if_neg (by omega), if_pos hzero, hslice] at h
    obtain ⟨found', hparse, h⟩ := bind_eq_ok_iff.mp h
    obtain ⟨names, hnames, hdata', hvalid, rfl⟩ := parseServerName_eq_ok_iff.mp hparse
    have hle : 2 + (names.flatMap NameEntry.bytes).length < 256 ^ 2 := by
      have hlt := data.length_lt
      rw [hdata', Vec.length_bytes] at hlt
      exact hlt
    obtain ⟨hnext, hremaining⟩ := hrender (.serverName names hle) hzero.symm
      (by cases data; cases hdata'; rfl)
    rw [← hnext] at h hdata
    exact ⟨.serverName names hle, sawEch, hremaining, not_lt.mp hdata, hvalid, h⟩
  · obtain ⟨hnext, hremaining⟩ := hrender (.other _ data ⟨hzero, hlt⟩) rfl rfl
    rw [← hnext] at h hdata
    refine ⟨.other _ data ⟨hzero, hlt⟩, ?_⟩
    split_ifs at h
    · exact ⟨true, hremaining, not_lt.mp hdata, allValid_nil, h⟩
    · exact ⟨sawEch, hremaining, not_lt.mp hdata, allValid_nil, h⟩

theorem allValid_append_iff {hosts hosts' : List Str} :
    AllValid (hosts ++ hosts') ↔ AllValid hosts ∧ AllValid hosts' :=
  List.forall_mem_append

/-- What extensions that the loop accepts look like. -/
theorem exists_of_extensionLoop {body : Bytes} {extEnd fuel off : ℕ} {sawEch sawEch' : Bool}
    {found found' : Option Str} (hend : extEnd ≤ body.length) (hoff : off ≤ extEnd)
    (h : extensionLoop body extEnd fuel off sawEch found = .ok (extEnd, sawEch', found')) :
    ∃ extensions : List HelloExtension,
      Remaining body off (extensions.flatMap HelloExtension.bytes ++ body.drop extEnd) ∧
      off + (extensions.flatMap HelloExtension.bytes).length = extEnd ∧
      AllValid (extensions.flatMap HelloExtension.hostNames) ∧
      found' = lastHost found (extensions.flatMap HelloExtension.hostNames) := by
  induction fuel generalizing off sawEch found with
  | zero =>
    cases h
    exact ⟨[], ⟨hend, rfl⟩, rfl, allValid_nil, rfl⟩
  | succ fuel ih =>
    by_cases hfour : extEnd < off + 4
    · rw [extensionLoop, if_pos hfour] at h
      cases h
      exact ⟨[], ⟨hend, rfl⟩, rfl, allValid_nil, rfl⟩
    obtain ⟨e, sawEch'', hahead, hle, hvalid, h⟩ :=
      exists_of_extensionLoop_succ hend (not_lt.mp hfour) h
    obtain ⟨extensions, hrest, hlength, hall, rfl⟩ := ih hle h
    refine ⟨e :: extensions, ⟨by omega, ?_⟩, ?_, ?_, ?_⟩
    · rw [hahead.eq, List.flatMap_cons, List.append_assoc, hrest.eq]
    · rw [List.flatMap_cons, List.length_append, ← Nat.add_assoc, hlength]
    · rw [List.flatMap_cons]
      exact allValid_append_iff.mpr ⟨hvalid, hall⟩
    · rw [List.flatMap_cons, lastHost_append]

/-- Extensions with valid names are accepted. -/
theorem extensionLoop_of_extensions {body t : Bytes} {extEnd fuel off : ℕ} (sawEch : Bool)
    (found : Option Str) {extensions : List HelloExtension}
    (h : Remaining body off (extensions.flatMap HelloExtension.bytes ++ t))
    (hend : off + (extensions.flatMap HelloExtension.bytes).length = extEnd)
    (hvalid : AllValid (extensions.flatMap HelloExtension.hostNames))
    (hfuel : extensions.length ≤ fuel) :
    ∃ sawEch', extensionLoop body extEnd fuel off sawEch found =
      .ok (extEnd, sawEch', lastHost found (extensions.flatMap HelloExtension.hostNames)) := by
  have hle : extEnd ≤ body.length := by
    have hlength := h.length_eq
    rw [List.length_append] at hlength
    omega
  induction extensions generalizing fuel off sawEch found with
  | nil =>
    have hdone : off = extEnd := hend
    rw [hdone]
    cases fuel with
    | zero => exact ⟨sawEch, rfl⟩
    | succ fuel => exact ⟨sawEch, if_pos (by omega)⟩
  | cons e extensions ih =>
    obtain ⟨fuel, rfl⟩ : ∃ n, fuel = n + 1 := ⟨fuel - 1, by rw [List.length_cons] at hfuel; omega⟩
    rw [List.flatMap_cons] at h hend hvalid
    rw [List.append_assoc] at h
    rw [List.length_append] at hend
    rw [List.length_cons] at hfuel
    rw [allValid_append_iff] at hvalid
    obtain ⟨sawEch', hround⟩ :=
      extensionLoop_cons h hle (by omega) hvalid.1 fuel sawEch found
    have hfuel' : extensions.length ≤ fuel := by omega
    obtain ⟨sawEch'', hloop⟩ :=
      ih sawEch' (lastHost found e.hostNames) h.advance (by omega) hvalid.2 hfuel'
    exact ⟨sawEch'', by rw [hround, hloop, List.flatMap_cons, lastHost_append]⟩

theorem length_le_length_extensions (extensions : List HelloExtension) :
    extensions.length ≤ (extensions.flatMap HelloExtension.bytes).length := by
  induction extensions with
  | nil => exact le_rfl
  | cons e extensions ih =>
    have hlength := e.length_bytes
    rw [List.flatMap_cons, List.length_append, List.length_cons]
    omega

/-! ### The fields in front of the extensions -/

theorem beNat_singleton (x : UInt8) : beNat [x] = x.toNat :=
  Nat.zero_add x.toNat

/-- The length byte of a vector. -/
theorem beNat_slice_succ {buf : Bytes} {off : ℕ} (h : off < buf.length) :
    beNat (slice buf off (off + 1)) = (buf.getD off 0).toNat := by
  obtain ⟨x, t, hahead⟩ := Remaining.exists_cons h
  have hslice := hahead.slice_self (s := [x])
  have hget := hahead.getElem?_head
  rw [List.length_singleton] at hslice
  rw [hslice, beNat_singleton, List.getD_eq_getElem?_getD, hget]
  rfl

/-- The vectors that the walk over the fields in front of the extensions reads: where each of them
ends and what is asked of it. -/
structure FrontEnds (body : Bytes) (sessionId cipherSuites off : ℕ) : Prop where
  sessionId_eq : sessionId = 34 + 1 + beNat (slice body 34 (34 + 1))
  cipherSuites_eq : cipherSuites = sessionId + 2 + beNat (slice body sessionId (sessionId + 2))
  off_eq : off = cipherSuites + 1 + beNat (slice body cipherSuites (cipherSuites + 1))
  le : off ≤ body.length
  cipherSuites_ne_zero : beNat (slice body sessionId (sessionId + 2)) ≠ 0
  even_cipherSuites : beNat (slice body sessionId (sessionId + 2)) % 2 = 0
  compressionMethods_ne_zero : beNat (slice body cipherSuites (cipherSuites + 1)) ≠ 0

/-- The compression methods behind the cipher suites. -/
theorem compressionMethods_eq_ok_iff {body : Bytes} {cipherSuites off : ℕ} :
    (match body[cipherSuites]? with
      | none => (.error .parseError : Except TlsSniffError ℕ)
      | some n =>
        if n = 0 ∨ body.length < cipherSuites + 1 + n.toNat then .error .parseError
        else .ok (cipherSuites + 1 + n.toNat)) = .ok off ↔
      off = cipherSuites + 1 + beNat (slice body cipherSuites (cipherSuites + 1)) ∧
        off ≤ body.length ∧ beNat (slice body cipherSuites (cipherSuites + 1)) ≠ 0 := by
  by_cases hlt : cipherSuites < body.length
  · have hzero : body[cipherSuites] = 0 ↔ body[cipherSuites].toNat = 0 :=
      UInt8.toNat_inj.symm
    rw [beNat_slice_succ hlt, List.getElem?_eq_getElem hlt, List.getD_eq_getElem _ _ hlt]
    dsimp only
    split_ifs with hbad
    · rw [hzero] at hbad
      simp only [false_iff]
      rintro ⟨rfl, hle, hne⟩
      omega
    · rw [hzero] at hbad
      rw [Except.ok.injEq]
      omega
  · rw [List.getElem?_eq_none (not_lt.mp hlt)]
    simp only [reduceCtorEq, false_iff]
    rintro ⟨rfl, hle, -⟩
    omega

theorem skipToExtensions_eq_ok_iff {body : Bytes} {off : ℕ} :
    skipToExtensions body = .ok off ↔
      ∃ sessionId cipherSuites, FrontEnds body sessionId cipherSuites off := by
  rw [skipToExtensions]
  dsimp only
  by_cases hfixed : body.length < 2 + 32 + 1
  · rw [if_pos hfixed]
    simp only [reduceCtorEq, false_iff]
    rintro ⟨sessionId, cipherSuites, hfront⟩
    have hle := hfront.le
    rw [hfront.off_eq, hfront.cipherSuites_eq, hfront.sessionId_eq] at hle
    omega
  rw [if_neg hfixed]
  have hlength : (body.getD (2 + 32) 0).toNat = beNat (slice body 34 (34 + 1)) :=
    (beNat_slice_succ (by omega)).symm
  rw [hlength]
  set sessionId := 34 + 1 + beNat (slice body 34 (34 + 1)) with hsession
  -- every solution has the session id that is read here
  have hunique : (∃ s cipherSuites, FrontEnds body s cipherSuites off) ↔
      ∃ cipherSuites, FrontEnds body sessionId cipherSuites off := by
    constructor
    · rintro ⟨s, cipherSuites, hfront⟩
      obtain rfl : s = sessionId := hfront.sessionId_eq
      exact ⟨cipherSuites, hfront⟩
    · rintro ⟨cipherSuites, hfront⟩
      exact ⟨sessionId, cipherSuites, hfront⟩
  rw [hunique]
  show (if body.length < sessionId then _ else
    if body.length < sessionId + 2 then _ else
      beU16 (slice body sessionId (sessionId + 2)) >>= fun cipherSuitesLen => _) = _ ↔ _
  by_cases hsuites : body.length < sessionId + 2
  · have herror : ∀ r : Except TlsSniffError ℕ, (if body.length < sessionId then
        (.error .parseError : Except TlsSniffError ℕ)
        else if body.length < sessionId + 2 then .error .parseError else r) =
          .error .parseError := by
      intro r
      split_ifs <;> rfl
    rw [herror]
    simp only [reduceCtorEq, false_iff]
    rintro ⟨cipherSuites, hfront⟩
    have hle := hfront.le
    rw [hfront.off_eq, hfront.cipherSuites_eq] at hle
    omega
  rw [if_neg (by omega), if_neg hsuites, beU16_slice (by omega)]
  set n := beNat (slice body sessionId (sessionId + 2)) with hn
  show (if n = 0 ∨ n % 2 ≠ 0 ∨ body.length < sessionId + 2 + n then _ else _) = _ ↔ _
  split_ifs with hbad
  · simp only [false_iff]
    rintro ⟨cipherSuites, hfront⟩
    have hle := hfront.le
    have hzero := hfront.cipherSuites_ne_zero
    have heven := hfront.even_cipherSuites
    rw [hfront.off_eq, hfront.cipherSuites_eq, ← hn] at hle
    rw [← hn] at hzero heven
    omega
  · refine compressionMethods_eq_ok_iff.trans ?_
    constructor
    · rintro ⟨hoff, hle, hne⟩
      exact ⟨sessionId + 2 + n, hsession, rfl, hoff, hle, by omega, by omega, hne⟩
    · rintro ⟨cipherSuites, hfront⟩
      obtain rfl : cipherSuites = sessionId + 2 + n := hfront.cipherSuites_eq
      exact ⟨hfront.off_eq, hfront.le, hfront.compressionMethods_ne_zero⟩

/-- The fields that have been walked over stand in the body. -/
theorem FrontEnds.exists_front {body : Bytes} {sessionId cipherSuites off : ℕ}
    (h : FrontEnds body sessionId cipherSuites off) :
    ∃ front : HelloFront, front.bytes.length = off ∧
      Remaining body 0 (front.bytes ++ body.drop off) := by
  obtain ⟨hsession, hsuites, hoff, hle, hzero, heven, hmethods⟩ := h
  obtain ⟨v, hv, hv'⟩ := Vec.exists_ahead body 34 1 (by omega)
  obtain ⟨w, hw, hw'⟩ := Vec.exists_ahead body sessionId 2 (by omega)
  obtain ⟨m, hm, hm'⟩ := Vec.exists_ahead body cipherSuites 1 (by omega)
  have hversion : (slice body 0 2).length = 2 := length_slice (by omega)
  have hrandom : (slice body 2 34).length = 32 := length_slice (by omega)
  have hne : w.data ≠ [] := fun hnil => by rw [hnil] at hw; exact hzero hw.symm
  have hne' : m.data ≠ [] := fun hnil => by rw [hnil] at hm; exact hmethods hm.symm
  refine ⟨⟨slice body 0 2, slice body 2 34, v, w, m, hversion, hrandom, hne, by omega, hne'⟩, ?_,
    Nat.zero_le _, ?_⟩
  · simp only [HelloFront.bytes, List.length_append, Vec.length_bytes]
    omega
  · have hv'' := hv'.eq
    have hw'' := hw'.eq
    have hm'' := hm'.eq
    rw [hv, ← hsession] at hv''
    rw [hw, ← hsuites] at hw''
    rw [hm, ← hoff] at hm''
    show body.drop 0 = slice body 0 2 ++ slice body 2 34 ++ v.bytes ++ w.bytes ++ m.bytes ++
      body.drop off
    simp only [List.append_assoc]
    rw [← hm'', ← hw'', ← hv'', ← drop_eq_slice_append body (by omega),
      ← drop_eq_slice_append body (by omega)]

/-- The fields that stand in a body are walked over. -/
theorem frontEnds_of_front {body t : Bytes} {front : HelloFront}
    (h : Remaining body 0 (front.bytes ++ t)) :
    ∃ sessionId cipherSuites, FrontEnds body sessionId cipherSuites front.bytes.length := by
  have hlength := h.length_eq
  obtain ⟨version, random, v, w, m, hversion, hrandom, hne, heven, hne'⟩ := front
  simp only [HelloFront.bytes, List.append_assoc] at h
  have hv := h.advance.advance
  rw [hversion, hrandom] at hv
  obtain ⟨hvnat, -, hw⟩ := Vec.read hv
  obtain ⟨hwnat, -, hm⟩ := Vec.read hw
  obtain ⟨hmnat, -, -⟩ := Vec.read hm
  have hwpos := List.length_pos_iff.mpr hne
  have hmpos := List.length_pos_iff.mpr hne'
  have hfront : (HelloFront.bytes ⟨version, random, v, w, m, hversion, hrandom, hne, heven,
      hne'⟩).length = 0 + 2 + 32 + 1 + v.data.length + 2 + w.data.length + 1 + m.data.length := by
    simp only [HelloFront.bytes, List.length_append, Vec.length_bytes]
    omega
  rw [List.length_append, hfront] at hlength
  rw [hfront]
  refine ⟨0 + 2 + 32 + 1 + v.data.length, 0 + 2 + 32 + 1 + v.data.length + 2 + w.data.length, ?_⟩
  refine ⟨?_, ?_, ?_, by omega, ?_, ?_, ?_⟩
  · rw [← hvnat]
  · rw [hwnat]
  · rw [hmnat]
  · rw [hwnat]
    omega
  · rw [hwnat, heven]
  · rw [hmnat]
    omega

/-! ### The parser -/

/-- The part of the parser behind the fields in front of the extensions. -/
theorem parseSni_eq_ok_iff_loop {body : Bytes} {host : Str} :
    parseSniFromClientHelloBody body = .ok host ↔
      ∃ off extEnd sawEch, skipToExtensions body = .ok off ∧
        extEnd = off + 2 + beNat (slice body off (off + 2)) ∧ extEnd ≤ body.length ∧
        extensionLoop body extEnd body.length (off + 2) false none =
          .ok (extEnd, sawEch, some host) ∧
        isFilteredEchOuterName host = false := by
  rw [parseSniFromClientHelloBody, bind_eq_ok_iff]
  refine exists_congr fun off => ?_
  by_cases hshort : body.length < off + 2
  · have herror : ∀ r : Except TlsSniffError Str, (if off = body.length then .error .tlsNoSni
        else if body.length < off + 2 then .error .parseError else r) ≠ .ok host := by
      intro r
      split_ifs <;> simp
    constructor
    · rintro ⟨-, h⟩
      exact absurd h (herror _)
    · rintro ⟨extEnd, sawEch, -, rfl, hle, -⟩
      omega
  rw [if_neg (by omega), if_neg hshort, beU16_slice (by omega)]
  show _ ∧ (if body.length < off + 2 + beNat (slice body off (off + 2)) then _ else
    extensionLoop body (off + 2 + beNat (slice body off (off + 2))) body.length (off + 2) false
      none >>= fun r => _) = _ ↔ _
  constructor
  · rintro ⟨hskip, h⟩
    split_ifs at h with hend
    obtain ⟨⟨off', sawEch, found⟩, hloop, h⟩ := bind_eq_ok_iff.mp h
    dsimp only at h
    split_ifs at h with hdone
    rw [not_not] at hdone
    cases found with
    | none => cases h
    | some host' =>
      dsimp only at h
      split_ifs at h with hfiltered
      cases h
      rw [hdone] at hloop
      exact ⟨_, sawEch, hskip, rfl, not_lt.mp hend, hloop, Bool.eq_false_iff.mpr hfiltered⟩
  · rintro ⟨extEnd, sawEch, hskip, rfl, hend, hloop, hfiltered⟩
    refine ⟨hskip, ?_⟩
    rw [if_neg (not_lt.mpr hend), hloop]
    show (if _ ≠ _ then _ else if isFilteredEchOuterName host = true then _ else _) = _
    rw [if_neg (not_not.mpr rfl), hfiltered]
    rfl

/-- The bodies that the parser accepts, and the host it returns. -/
def Accepts (body : Bytes) (host : Str) : Prop :=
  ∃ (hello : ClientHelloBody) (trailing : Bytes) (name : Str),
    body = hello.bytes ++ trailing ∧
    (∀ name ∈ hello.hostNames, isValidSniHostname name = true) ∧
    hello.hostNames.getLast? = some name ∧ host = name.map toAsciiLowercase ∧
    isFilteredEchOuterName host = false

theorem parseSni_eq_ok_iff_accepts {body : Bytes} {host : Str} :
    parseSniFromClientHelloBody body = .ok host ↔ Accepts body host := by
  rw [parseSni_eq_ok_iff_loop]
  constructor
  · rintro ⟨off, extEnd, sawEch, hskip, hextEnd, hle, hloop, hfiltered⟩
    obtain ⟨sessionId, cipherSuites, hends⟩ := skipToExtensions_eq_ok_iff.mp hskip
    obtain ⟨front, hlength, hfront⟩ := hends.exists_front
    obtain ⟨extensions, hahead, hblock, hvalid, hhost⟩ :=
      exists_of_extensionLoop hle (by omega) hloop
    obtain ⟨block, hblockLength, hblock'⟩ :=
      Vec.exists_ahead body off 2 (by omega)
    obtain ⟨-, hdata, -⟩ := Vec.read hblock'
    have hblockEnd : off + 2 + block.data.length = extEnd := by rw [hblockLength, hextEnd]
    have hextensions : block.data = extensions.flatMap HelloExtension.bytes := by
      rw [← hdata, hblockEnd, ← hblock]
      exact hahead.slice_self
    have hlt : (extensions.flatMap HelloExtension.bytes).length < 256 ^ 2 := by
      rw [← hextensions]
      exact block.length_lt
    obtain ⟨name, hname, hlower⟩ : ∃ name,
        (extensions.flatMap HelloExtension.hostNames).getLast? = some name ∧
          host = name.map toAsciiLowercase := by
      rw [lastHost, Option.or_none, eq_comm, Option.map_eq_some_iff] at hhost
      obtain ⟨name, hname, hlower⟩ := hhost
      exact ⟨name, hname, hlower.symm⟩
    refine ⟨⟨front, extensions, hlt⟩, body.drop extEnd, name, ?_, hvalid, hname, hlower, hfiltered⟩
    have hbody := hfront.eq
    rw [List.drop_zero, hblock'.eq, hblockEnd, ← List.append_assoc, Vec.bytes, hextensions] at hbody
    exact hbody
  · rintro ⟨hello, trailing, name, rfl, hvalid, hname, rfl, hfiltered⟩
    have hfront : Remaining (hello.bytes ++ trailing) 0
        (hello.front.bytes ++ (hello.extensionBlock.bytes ++ trailing)) := by
      rw [← List.append_assoc]
      exact Remaining.start _
    obtain ⟨sessionId, cipherSuites, hends⟩ := frontEnds_of_front hfront
    have hskip := skipToExtensions_eq_ok_iff.mpr ⟨sessionId, cipherSuites, hends⟩
    have hblock := hfront.advance
    rw [Nat.zero_add] at hblock
    obtain ⟨hnat, -, hrest⟩ := Vec.read hblock
    have hahead : Remaining (hello.bytes ++ trailing) (hello.front.bytes.length + 2)
        (hello.extensions.flatMap HelloExtension.bytes ++ trailing) := by
      rw [Vec.bytes, List.append_assoc] at hblock
      have hadvance := hblock.advance
      rwa [length_beBytes] at hadvance
    have hfuel : hello.extensions.length ≤ (hello.bytes ++ trailing).length := by
      have hextensions := length_le_length_extensions hello.extensions
      have hlength := hahead.length_eq
      rw [List.length_append] at hlength
      omega
    obtain ⟨sawEch, hloop⟩ := extensionLoop_of_extensions false none hahead rfl hvalid hfuel
    refine ⟨_, _, sawEch, hskip, ?_, hrest.le, ?_, hfiltered⟩
    · rw [hnat]
    · have hhost : lastHost none (hello.extensions.flatMap HelloExtension.hostNames) =
          some (name.map toAsciiLowercase) := by
        have hlast : (hello.extensions.flatMap HelloExtension.hostNames).getLast? = some name :=
          hname
        rw [lastHost, hlast]
        rfl
      rw [hhost] at hloop
      exact hloop

end XtpRs.Sniff
