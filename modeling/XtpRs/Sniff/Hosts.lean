import XtpRs.Net.Socks5Connect
import XtpRs.Net.Socks5Udp
import XtpRs.Sniff.Http
import XtpRs.Sniff.Quic.Packet
import XtpRs.Sniff.TlsRecords

/-!
# The hosts that sniffing finds

Every host that a sniffer returns has passed `is_valid_sni_hostname` in lower case. The route
tables, the caches and the SOCKS5 encoders rely on what follows from it.

## Main definitions

* `WellFormedHost`: a host in canonical form that fits the length byte of SOCKS5.
* `Sniffed`: the hosts that the sniffers return.

## Main results

* `sniffed_host_encodable`: a host that is returned is well formed, and both SOCKS5 encoders accept
  it with its length.
-/

namespace XtpRs.Sniff

open Lib Routing

/-- A byte of a host: a lower-case letter, a digit, a hyphen or a dot. -/
def IsHostByte (b : UInt8) : Prop :=
  (0x61 ≤ b ∧ b ≤ 0x7a) ∨ (0x30 ≤ b ∧ b ≤ 0x39) ∨ b = hyphen ∨ b = dot

/-- A host in canonical form. -/
structure WellFormedHost (host : Str) : Prop where
  canonical : canonicalDomain host = host
  pos : 1 ≤ host.length
  le : host.length ≤ 253
  bytes : ∀ b ∈ host, IsHostByte b
  labels : ∀ label ∈ splitDots host, label ≠ []

/-! ### Valid host names -/

/-- A byte other than the separator is in one of the parts. -/
theorem exists_mem_splitOn {α : Type} [DecidableEq α] {sep a : α} {l : List α} (h : a ∈ l)
    (hne : a ≠ sep) : ∃ part ∈ l.splitOn sep, a ∈ part := by
  induction l with
  | nil => cases h
  | cons b l ih =>
    rw [List.splitOn_cons_eq_if_modifyHead]
    obtain ⟨part, parts, hparts⟩ := List.exists_cons_of_ne_nil (List.splitOn_ne_nil sep l)
    rw [hparts] at ih ⊢
    split_ifs with hb
    · have hmem : a ∈ l := by
        obtain rfl | hmem := List.mem_cons.mp h
        · exact absurd (beq_iff_eq.mp hb) hne
        · exact hmem
      obtain ⟨part', hpart', ha⟩ := ih hmem
      exact ⟨part', List.mem_cons_of_mem _ hpart', ha⟩
    · rw [List.modifyHead_cons]
      obtain rfl | hmem := List.mem_cons.mp h
      · exact ⟨a :: part, List.mem_cons_self, List.mem_cons_self⟩
      · obtain ⟨part', hpart', ha⟩ := ih hmem
        obtain rfl | hpart' := List.mem_cons.mp hpart'
        · exact ⟨b :: part', List.mem_cons_self, List.mem_cons_of_mem b ha⟩
        · exact ⟨part', List.mem_cons_of_mem _ hpart', ha⟩

theorem isHostByte_of_label {b : UInt8} (h : isAsciiAlphanumeric b = true ∨ b = hyphen)
    (hlower : toAsciiLowercase b = b) : IsHostByte b := by
  have hall : ∀ b : UInt8, (isAsciiAlphanumeric b = true ∨ b = hyphen) → toAsciiLowercase b = b →
      (0x61 ≤ b ∧ b ≤ 0x7a) ∨ (0x30 ≤ b ∧ b ≤ 0x39) ∨ b = hyphen ∨ b = dot := by
    decide +kernel
  exact hall b h hlower

/-- **A valid name in lower case is well formed.** -/
theorem wellFormedHost_of_valid {name : Str}
    (h : isValidSniHostname (name.map toAsciiLowercase) = true) :
    WellFormedHost (name.map toAsciiLowercase) := by
  generalize hhost : name.map toAsciiLowercase = host at h
  have hlower : ∀ b ∈ host, toAsciiLowercase b = b := by
    intro b hb
    rw [← hhost] at hb
    obtain ⟨b', -, rfl⟩ := List.mem_map.mp hb
    exact toAsciiLowercase_idem b'
  simp only [isValidSniHostname, Bool.and_eq_true, Bool.not_eq_true', List.isEmpty_eq_false_iff,
    decide_eq_true_eq, bne_iff_ne, List.all_eq_true] at h
  obtain ⟨⟨⟨⟨hne, hle⟩, hlast⟩, hlabels⟩, -⟩ := h
  have hlabel : ∀ label ∈ splitDots host, label ≠ [] ∧
      ∀ b ∈ label, isAsciiAlphanumeric b = true ∨ b = hyphen := by
    intro label hmem
    have hvalid := hlabels label hmem
    simp only [isValidLabel, Bool.and_eq_true, Bool.not_eq_true', List.isEmpty_eq_false_iff,
      List.all_eq_true, Bool.or_eq_true, beq_iff_eq] at hvalid
    exact ⟨hvalid.1.1.1.1, hvalid.2⟩
  have hhead : host.head? ≠ some dot := by
    intro hdot
    obtain ⟨rest, rfl⟩ : ∃ rest, host = dot :: rest := List.head?_eq_some_iff.mp hdot
    have hnil : [] ∈ splitDots (dot :: rest) := by
      rw [splitDots, List.splitOn_cons_eq_if_modifyHead, if_pos (beq_self_eq_true dot)]
      exact List.mem_cons_self
    exact (hlabel [] hnil).1 rfl
  refine ⟨canonicalDomain_eq_self ⟨hhead, hlast, hlower⟩, List.length_pos_iff.mpr hne, hle, ?_,
    fun label hmem => (hlabel label hmem).1⟩
  intro b hb
  by_cases hdot : b = dot
  · exact .inr (.inr (.inr hdot))
  · obtain ⟨label, hmem, hblabel⟩ := exists_mem_splitOn hb hdot
    exact isHostByte_of_label ((hlabel label hmem).2 b hblabel) (hlower b hb)

/-! ### Case and encoding of host names -/

/-- Splitting commutes with a function that keeps the separator apart. -/
theorem splitOn_map {α : Type} [DecidableEq α] {f : α → α} {sep : α}
    (hf : ∀ a, f a = sep ↔ a = sep) (l : List α) :
    (l.map f).splitOn sep = (l.splitOn sep).map (List.map f) := by
  induction l with
  | nil => rfl
  | cons a l ih =>
    rw [List.map_cons, List.splitOn_cons_eq_if_modifyHead, List.splitOn_cons_eq_if_modifyHead, ih]
    obtain ⟨part, parts, hparts⟩ := List.exists_cons_of_ne_nil (List.splitOn_ne_nil sep l)
    by_cases ha : a = sep
    · rw [if_pos (beq_iff_eq.mpr ((hf a).mpr ha)), if_pos (beq_iff_eq.mpr ha)]
      rfl
    · rw [if_neg (fun h => ha ((hf a).mp (beq_iff_eq.mp h))),
        if_neg (fun h => ha (beq_iff_eq.mp h)), hparts]
      rfl

theorem toAsciiLowercase_eq_hyphen_iff (b : UInt8) : toAsciiLowercase b = hyphen ↔ b = hyphen := by
  revert b
  decide +kernel

theorem isAsciiAlphabetic_toAsciiLowercase (b : UInt8) :
    isAsciiAlphabetic (toAsciiLowercase b) = isAsciiAlphabetic b := by
  revert b
  decide +kernel

theorem isAsciiAlphanumeric_toAsciiLowercase (b : UInt8) :
    isAsciiAlphanumeric (toAsciiLowercase b) = isAsciiAlphanumeric b := by
  revert b
  decide +kernel

theorem isValidLabel_map_toAsciiLowercase (label : Str) :
    isValidLabel (label.map toAsciiLowercase) = isValidLabel label := by
  have hoption : ∀ o : Option UInt8,
      (o.map toAsciiLowercase != some hyphen) = (o != some hyphen) := by
    rintro (_ | b)
    · rfl
    · have hiff := toAsciiLowercase_eq_hyphen_iff b
      rw [Bool.eq_iff_iff]
      simp [hiff]
  have hall : ∀ b, (isAsciiAlphanumeric (toAsciiLowercase b) || toAsciiLowercase b == hyphen) =
      (isAsciiAlphanumeric b || b == hyphen) := by
    intro b
    rw [isAsciiAlphanumeric_toAsciiLowercase, Bool.eq_iff_iff]
    simp [toAsciiLowercase_eq_hyphen_iff]
  rw [isValidLabel, isValidLabel, List.head?_map, List.getLast?_map, hoption, hoption, List.all_map,
    List.length_map, List.isEmpty_map]
  congr 1
  exact congrArg label.all (funext hall)

/-- The validity of a host name does not depend on its case. -/
theorem isValidSniHostname_map_toAsciiLowercase (host : Str) :
    isValidSniHostname (host.map toAsciiLowercase) = isValidSniHostname host := by
  have hsplit : splitDots (host.map toAsciiLowercase) =
      (splitDots host).map (List.map toAsciiLowercase) :=
    splitOn_map toAsciiLowercase_eq_dot_iff host
  have hlast : ((host.map toAsciiLowercase).getLast? != some dot) =
      (host.getLast? != some dot) := by
    rw [List.getLast?_map]
    cases host.getLast? with
    | none => rfl
    | some b =>
      rw [Bool.eq_iff_iff]
      simp [toAsciiLowercase_eq_dot_iff]
  have hlabels : ∀ label, (isValidLabel ∘ List.map toAsciiLowercase) label = isValidLabel label :=
    isValidLabel_map_toAsciiLowercase
  have halpha : ∀ label : Str, ((fun label => label.any isAsciiAlphabetic) ∘
      List.map toAsciiLowercase) label = label.any isAsciiAlphabetic := by
    intro label
    rw [Function.comp_apply, List.any_map]
    exact congrArg label.any (funext isAsciiAlphabetic_toAsciiLowercase)
  rw [isValidSniHostname, isValidSniHostname, hsplit, hlast, List.isEmpty_map, List.length_map,
    List.all_map, List.any_map, funext hlabels, funext halpha]

/-- Bytes of ASCII are the encoding of a string. -/
theorem fromUtf8_of_ascii {b : Bytes} (h : ∀ x ∈ b, x < 0x80) : fromUtf8 b = some b := by
  have hloop : utf8Loop 0 0 0 b = true := by
    induction b with
    | nil => rfl
    | cons x rest ih =>
      rw [List.forall_mem_cons] at h
      rw [utf8Loop, if_pos h.1]
      exact ih h.2
  rw [fromUtf8, if_pos hloop]

/-- The bytes of a valid host name. -/
theorem ascii_of_valid {host : Str} (h : isValidSniHostname host = true) :
    ∀ b ∈ host, b < 0x80 := by
  rw [← isValidSniHostname_map_toAsciiLowercase] at h
  have hbytes := (wellFormedHost_of_valid h).bytes
  have hascii : ∀ b : UInt8, ((0x61 ≤ toAsciiLowercase b ∧ toAsciiLowercase b ≤ 0x7a) ∨
      (0x30 ≤ toAsciiLowercase b ∧ toAsciiLowercase b ≤ 0x39) ∨ toAsciiLowercase b = hyphen ∨
      toAsciiLowercase b = dot) → b < 0x80 := by
    decide +kernel
  intro b hb
  exact hascii b (hbytes _ (List.mem_map_of_mem hb))

/-- A host name is taken over by a parser exactly if it is valid. -/
theorem fromUtf8_of_valid {host : Str} (h : isValidSniHostname host = true) :
    fromUtf8 host = some host :=
  fromUtf8_of_ascii (ascii_of_valid h)

/-! ### The parsers -/

/-- A host found so far is well formed. -/
def FoundWellFormed (found : Option Str) : Prop :=
  ∀ host, found = some host → WellFormedHost host

theorem foundWellFormed_none : FoundWellFormed none := by
  intro host h
  cases h

theorem returns_serverNameLoop {ext : Bytes} {fuel p : ℕ} {found : Option Str}
    (h : FoundWellFormed found) :
    Returns (fun r => FoundWellFormed r.2) (serverNameLoop ext fuel p found) := by
  induction fuel generalizing p found with
  | zero => exact .ok h
  | succ fuel ih =>
    refine .ite (fun _ => .ok h) fun _ => .bind fun nameLen _ => ?_
    refine .ite (fun _ => .error _) fun _ => .ite (fun _ => ?_) fun _ => ih h
    split
    · exact .error _
    · refine .ite (fun hvalid => ih ?_) fun _ => .error _
      rintro host ⟨rfl⟩
      exact wellFormedHost_of_valid hvalid

theorem returns_parseServerName {ext : Bytes} {found : Option Str} (h : FoundWellFormed found) :
    Returns FoundWellFormed (parseServerName ext found) := by
  refine .ite (fun _ => .error _) fun _ => .bind fun listLen _ => ?_
  refine .ite (fun _ => .error _) fun _ => .bind fun r hr => ?_
  exact .ite (fun _ => .error _) fun _ => .ok (returns_serverNameLoop h r hr)

theorem returns_extensionLoop {body : Bytes} {extEnd fuel off : ℕ} {sawEch : Bool}
    {found : Option Str} (h : FoundWellFormed found) :
    Returns (fun r => FoundWellFormed r.2.2) (extensionLoop body extEnd fuel off sawEch found) := by
  induction fuel generalizing off sawEch found with
  | zero => exact .ok h
  | succ fuel ih =>
    refine .ite (fun _ => .ok h) fun _ => .bind fun extType _ => .bind fun extLen _ => ?_
    refine .ite (fun _ => .error _) fun _ => .ite (fun _ => ih h) fun _ => ?_
    refine .ite (fun _ => .bind fun found' hfound => ?_) fun _ => ih h
    exact ih (returns_parseServerName h found' hfound)

theorem returns_parseSniFromClientHelloBody (body : Bytes) :
    Returns WellFormedHost (parseSniFromClientHelloBody body) := by
  refine .bind fun off _ => .ite (fun _ => .error _) fun _ => .ite (fun _ => .error _) fun _ => ?_
  refine .bind fun extensionsLen _ => .ite (fun _ => .error _) fun _ => .bind fun r hr => ?_
  refine .ite (fun _ => .error _) fun _ => ?_
  have hfound := returns_extensionLoop foundWellFormed_none r hr
  split
  · rename_i host heq
    exact .ite (fun _ => .error _) fun _ => .ok (hfound host heq)
  · exact .error _

theorem returns_recordLoop (buf : Bytes) (maxLen fuel off : ℕ) (handshake : Bytes)
    (neededTotal : Option ℕ) (saw : Bool) :
    Returns WellFormedHost (recordLoop buf maxLen fuel off handshake neededTotal saw) := by
  have hend : ∀ saw, Returns WellFormedHost (endOfRecords saw) := fun saw =>
    .ite (fun _ => .error _) fun _ => .error _
  induction fuel generalizing off handshake neededTotal saw with
  | zero => exact hend saw
  | succ fuel ih =>
    refine .ite (fun _ => hend saw) fun _ => .ite (fun _ => ?_) fun _ => ?_
    · refine .ite (fun _ => .ite (fun _ => .error _) fun _ => ?_) fun _ => hend saw
      exact .ite (fun _ => .error _) fun _ => .error _
    · refine .bind fun recordEnd _ => .bind fun neededTotal' _ => ?_
      cases neededTotal' with
      | none => exact ih _ _ _ _
      | some total =>
        exact .ite (fun _ => returns_parseSniFromClientHelloBody _) fun _ => ih _ _ _ _

theorem returns_sniffTlsSniFromPrefix (buf : Bytes) (maxLen : ℕ) :
    Returns WellFormedHost (sniffTlsSniFromPrefix buf maxLen) :=
  .ite (fun _ => .error _) fun _ => returns_recordLoop _ _ _ _ _ _ _

theorem returns_parseHttpHostHeaderValue (value : Str) :
    Returns WellFormedHost (parseHttpHostHeaderValue value) := by
  refine .ite (fun _ => .error _) fun _ => .ite (fun _ => .error _) fun _ => ?_
  exact .ite (fun hvalid => .ok (wellFormedHost_of_valid hvalid)) fun _ => .error _

theorem returns_hostLoop (lines : List Str) : Returns WellFormedHost (hostLoop lines) := by
  induction lines with
  | nil => exact .error _
  | cons line rest ih =>
    refine .ite (fun _ => .error _) fun _ => ?_
    split
    · exact .error _
    · exact .ite (fun _ => returns_parseHttpHostHeaderValue _) fun _ => ih

theorem returns_sniffHttpHostFromPrefix (buf : Bytes) (maxLen : ℕ) :
    Returns WellFormedHost (sniffHttpHostFromPrefix buf maxLen) := by
  unfold sniffHttpHostFromPrefix
  split
  · exact .error _
  · refine .ite (fun _ => .error _) fun _ => .ite (fun _ => .error _) fun _ => ?_
    split
    · exact .ite (fun _ => .error _) fun _ => .error _
    · unfold parseHeader
      split
      · exact .error _
      · split
        · exact .error _
        · exact .ite (fun _ => returns_hostLoop _) fun _ => .error _

theorem returns_quicParseTlsClientHelloFromCrypto (crypto : Bytes) :
    Returns WellFormedHost (quicParseTlsClientHelloFromCrypto crypto) := by
  refine .ite (fun _ => .error _) fun _ => .ite (fun _ => .error _) fun _ => ?_
  split
  · exact .error _
  · refine .ite (fun _ => .error _) fun _ => .ite (fun _ => .error _) fun _ => ?_
    split
    · rename_i host hhost
      exact .ok (returns_parseSniFromClientHelloBody _ host hhost)
    · exact .error _

theorem returns_datagramLoop (target : Target) (prims : QuicPrimitives) (datagram : Bytes)
    (fuel off : ℕ) (sawInitial : Bool) (crypto : QuicCryptoReassembly) :
    Returns WellFormedHost (datagramLoop target prims datagram fuel off sawInitial crypto).1 := by
  induction fuel generalizing off sawInitial crypto with
  | zero => exact .error _
  | succ fuel ih =>
    unfold datagramLoop
    split
    · exact .error _
    · split
      · split
        · rename_i host hhost
          exact .ok (returns_quicParseTlsClientHelloFromCrypto _ host hhost)
        · exact ih _ _ _
        · exact .error _
      · exact .error _
      · exact .error _

theorem returns_sniffQuic (target : Target) (prims : QuicPrimitives) (datagram : Bytes)
    (crypto : QuicCryptoReassembly) : Returns WellFormedHost
      (sniffQuicSniFromDatagramWithReassembly target prims datagram crypto).1 := by
  unfold sniffQuicSniFromDatagramWithReassembly
  split
  · exact .error _
  · split_ifs
    · exact .error _
    · exact returns_datagramLoop _ _ _ _ _ _ _

/-! ### Encoding -/

/-- The hosts that the sniffers return. -/
inductive Sniffed : Str → Prop
  | tls {buf : Bytes} {maxLen : ℕ} {host : Str} (h : sniffTlsSniFromPrefix buf maxLen = .ok host) :
      Sniffed host
  | http {buf : Bytes} {maxLen : ℕ} {host : Str}
      (h : sniffHttpHostFromPrefix buf maxLen = .ok host) : Sniffed host
  | quic {target : Target} {prims : QuicPrimitives} {datagram : Bytes}
      {crypto : QuicCryptoReassembly} {host : Str}
      (h : (sniffQuicSniFromDatagramWithReassembly target prims datagram crypto).1 = .ok host) :
      Sniffed host

theorem Sniffed.wellFormed {host : Str} (h : Sniffed host) : WellFormedHost host := by
  cases h with
  | tls h => exact returns_sniffTlsSniFromPrefix _ _ _ h
  | http h => exact returns_sniffHttpHostFromPrefix _ _ _ h
  | quic h => exact returns_sniffQuic _ _ _ _ _ h

/-- The length byte of a host. -/
theorem WellFormedHost.toNat_length {host : Str} (h : WellFormedHost host) :
    (UInt8.ofNat host.length).toNat = host.length := by
  have hle := h.le
  rw [UInt8.toNat_ofNat', Nat.mod_eq_of_lt (by omega)]

theorem WellFormedHost.not_refused {host : Str} (h : WellFormedHost host) :
    ¬(host.isEmpty || decide (255 < host.length)) = true := by
  have hpos := h.pos
  have hle := h.le
  rw [Bool.or_eq_true, List.isEmpty_iff, decide_eq_true_eq]
  rintro (rfl | hlong)
  · simp at hpos
  · omega

/-- **Sniffed hosts.** A host that a sniffer returns is in canonical form, has between 1 and 253
bytes and no empty label; `build_socks5_udp_packet` and the request of `socks5_connect` accept it,
and the byte behind the address type is its length. -/
theorem sniffed_host_encodable {host : Str} (h : Sniffed host) :
    WellFormedHost host ∧
    (∀ port payload, ∃ packet, buildSocks5UdpPacket (.domain host port) payload = .ok packet ∧
      (packet[4]?).map UInt8.toNat = some host.length) ∧
    ∀ port, ∃ req, socks5ConnectRequest (.domain host port) = .ok req ∧
      (req[4]?).map UInt8.toNat = some host.length := by
  have hhost := h.wellFormed
  refine ⟨hhost, fun port payload => ⟨_, if_neg hhost.not_refused, ?_⟩,
    fun port => ⟨_, if_neg hhost.not_refused, ?_⟩⟩
  · exact congrArg some hhost.toNat_length
  · exact congrArg some hhost.toNat_length

/-- The host of a request for `A.cn`. -/
theorem sniffed_host_encodable_acn :
    ∃ host : Str, sniffHttpHostFromPrefix
      [0x47, 0x45, 0x54, 0x20, 0x2f, 0x20, 0x48, 0x54, 0x54, 0x50, 0x2f, 0x31, 0x2e, 0x31, 0x0d,
        0x0a, 0x48, 0x6f, 0x73, 0x74, 0x3a, 0x20, 0x41, 0x2e, 0x63, 0x6e, 0x0d, 0x0a, 0x0d, 0x0a]
      512 = .ok host ∧ host = [0x61, 0x2e, 0x63, 0x6e] ∧ WellFormedHost host ∧
    ∀ port, ∃ req, socks5ConnectRequest (.domain host port) = .ok req ∧
      (req[4]?).map UInt8.toNat = some 4 := by
  have hsniff : sniffHttpHostFromPrefix
      [0x47, 0x45, 0x54, 0x20, 0x2f, 0x20, 0x48, 0x54, 0x54, 0x50, 0x2f, 0x31, 0x2e, 0x31, 0x0d,
        0x0a, 0x48, 0x6f, 0x73, 0x74, 0x3a, 0x20, 0x41, 0x2e, 0x63, 0x6e, 0x0d, 0x0a, 0x0d, 0x0a]
      512 = .ok [0x61, 0x2e, 0x63, 0x6e] := by
    decide +kernel
  obtain ⟨hhost, -, hreq⟩ := sniffed_host_encodable (.http hsniff)
  exact ⟨_, hsniff, rfl, hhost, hreq⟩

end XtpRs.Sniff
