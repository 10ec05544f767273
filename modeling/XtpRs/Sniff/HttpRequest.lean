import XtpRs.Sniff.Hosts

/-!
# Requests with a host

A rendering of HTTP/1.x requests with a `Host` header, and `sniff_http_host_from_prefix` of
`src/sniff/http.rs` on it: the sniffer finds the host of the first `Host` header in lower case,
whatever the other headers and the bytes behind the head are.

## Main definitions

* `HostHeader`, `OtherHeader`, `HttpRequest`: the parts of a request.
* `HttpRequest.head`: its bytes up to the empty line.

## Main results

* `findHttpHeaderEnd_head`, `splitLines_append`: where the head ends, and its lines.
* `HostHeader.parseHttpHostHeaderValue_value`: the value of the `Host` header.
* `sniffHttpHostFromPrefix_head`: the host of the request.
-/

namespace XtpRs.Sniff

open Lib Routing

/-! ### Text -/

/-- Behind a complete encoding the reader is where it was at the start. -/
theorem utf8Loop_append {pending : ℕ} {lo hi : UInt8} {b : Bytes}
    (h : utf8Loop pending lo hi b = true) (b' : Bytes) :
    utf8Loop pending lo hi (b ++ b') = utf8Loop 0 0 0 b' := by
  induction b generalizing pending lo hi with
  | nil =>
    cases pending with
    | zero => cases b' <;> rfl
    | succ pending => cases h
  | cons x b ih =>
    cases pending with
    | zero =>
      rw [utf8Loop] at h
      rw [List.cons_append, utf8Loop]
      split_ifs at h ⊢ <;> exact ih h
    | succ pending =>
      rw [utf8Loop, Bool.and_eq_true] at h
      rw [List.cons_append, utf8Loop, h.1, Bool.true_and]
      exact ih h.2

/-- The carriage return. -/
def cr : UInt8 := 0x0d

/-- Text in which no line ends. -/
structure IsText (s : Bytes) : Prop where
  utf8 : utf8Loop 0 0 0 s = true
  cr_not_mem : cr ∉ s

theorem IsText.append {s s' : Bytes} (h : IsText s) (h' : IsText s') : IsText (s ++ s') := by
  refine ⟨(utf8Loop_append h.utf8 s').trans h'.utf8, ?_⟩
  rw [List.mem_append, not_or]
  exact ⟨h.cr_not_mem, h'.cr_not_mem⟩

theorem isText_of_ascii {s : Bytes} (h : ∀ b ∈ s, b < 0x80 ∧ b ≠ cr) : IsText s := by
  have hutf8 := fromUtf8_of_ascii fun b hb => (h b hb).1
  rw [fromUtf8] at hutf8
  split_ifs at hutf8 with hloop
  exact ⟨hloop, fun hcr => (h cr hcr).2 rfl⟩

/-- Lines with their ends. -/
def renderLines (lines : List Str) : Bytes := lines.flatMap (· ++ crlf)

theorem renderLines_cons (line : Str) (lines : List Str) :
    renderLines (line :: lines) = line ++ (crlf ++ renderLines lines) := by
  rw [renderLines, List.flatMap_cons, List.append_assoc]
  rfl

theorem length_renderLines_cons (line : Str) (lines : List Str) :
    (renderLines (line :: lines)).length = line.length + 2 + (renderLines lines).length := by
  have hcrlf : crlf.length = 2 := rfl
  rw [renderLines_cons, List.length_append, List.length_append, hcrlf, Nat.add_assoc]

theorem utf8_renderLines {lines : List Str} (h : ∀ line ∈ lines, IsText line) :
    utf8Loop 0 0 0 (renderLines lines) = true := by
  induction lines with
  | nil => rfl
  | cons line lines ih =>
    rw [List.forall_mem_cons] at h
    rw [renderLines_cons, utf8Loop_append h.1.utf8]
    exact (utf8Loop_append (b := crlf) rfl _).trans (ih h.2)

/-! ### The ends of lines -/

section Lines

variable {line rest : Bytes}

theorem isPrefixOf_cr {pattern : Bytes} {b : UInt8} (hb : b ≠ cr) :
    (cr :: pattern).isPrefixOf (b :: rest) = false := by
  rw [Bool.eq_false_iff, Ne, List.isPrefixOf_iff_prefix, List.cons_prefix_cons]
  rintro ⟨rfl, -⟩
  exact hb rfl

/-- A pattern that begins with a carriage return is not found within a line. -/
theorem position_cr_append (pattern rest : Bytes) (h : cr ∉ line) :
    position (cr :: pattern) (line ++ rest) =
      (position (cr :: pattern) rest).map (· + line.length) := by
  induction line with
  | nil => simp
  | cons b line ih =>
    rw [List.mem_cons, not_or] at h
    rw [List.cons_append, position, isPrefixOf_cr (Ne.symm h.1), ih h.2]
    rw [if_neg (by simp), Option.map_map, List.length_cons]
    rfl

/-- The end of the first line. -/
theorem position_crlf (h : cr ∉ line) :
    position crlf (line ++ (crlf ++ rest)) = some line.length := by
  refine (position_cr_append [0x0a] _ h).trans ?_
  have hfirst : position crlf (crlf ++ rest) = some 0 := by
    rw [crlf, List.cons_append, position]
    simp
  show (position crlf (crlf ++ rest)).map _ = _
  rw [hfirst, Option.map_some, Nat.zero_add]

/-- Behind the end of a line, the head goes on with a line that is not empty. -/
theorem position_crlf_cons {b : UInt8} (hb : b ≠ cr) :
    position (crlf ++ crlf) (crlf ++ b :: rest) =
      (position (crlf ++ crlf) (b :: rest)).map (· + 2) := by
  have hfirst : (crlf ++ crlf).isPrefixOf (crlf ++ b :: rest) = false := by
    rw [Bool.eq_false_iff, Ne, List.isPrefixOf_iff_prefix, List.prefix_append_right_inj, crlf,
      List.cons_prefix_cons]
    rintro ⟨rfl, -⟩
    exact hb rfl
  have hsecond : (crlf ++ crlf).isPrefixOf (0x0a :: b :: rest) = false :=
    isPrefixOf_cr (by decide)
  show position (crlf ++ crlf) (cr :: 0x0a :: b :: rest) = _
  rw [position, if_neg (by rw [Bool.not_eq_true]; exact hfirst), position,
    if_neg (by rw [hsecond]; simp), Option.map_map]
  rfl

/-- The head ends behind the last of its lines. -/
theorem position_head {lines : List Str} (h : ∀ line ∈ lines, cr ∉ line ∧ line ≠ [])
    (hne : lines ≠ []) (body : Bytes) :
    position (crlf ++ crlf) (renderLines lines ++ (crlf ++ body)) =
      some ((renderLines lines).length - 2) := by
  induction lines with
  | nil => exact absurd rfl hne
  | cons line lines ih =>
    rw [List.forall_mem_cons] at h
    have hline := position_cr_append ([0x0a] ++ crlf)
      (crlf ++ (renderLines lines ++ (crlf ++ body))) h.1.1
    have hrender : renderLines (line :: lines) ++ (crlf ++ body) =
        line ++ (crlf ++ (renderLines lines ++ (crlf ++ body))) := by
      rw [renderLines_cons, List.append_assoc, List.append_assoc]
    rw [hrender, length_renderLines_cons]
    refine hline.trans ?_
    cases lines with
    | nil =>
      have hend : position (crlf ++ crlf) (crlf ++ (crlf ++ body)) = some 0 := by
        show position (crlf ++ crlf) (cr :: 0x0a :: cr :: 0x0a :: body) = _
        rw [position]
        exact if_pos (by simp [crlf, cr])
      show (position (crlf ++ crlf) (crlf ++ (crlf ++ body))).map _ = _
      rw [hend, Option.map_some, renderLines, List.flatMap_nil, List.length_nil]
      congr 1
      omega
    | cons line' lines =>
      have hnext := ih h.2 (List.cons_ne_nil _ _)
      have hline' := h.2 line' List.mem_cons_self
      obtain ⟨b, t, ht⟩ := List.exists_cons_of_ne_nil hline'.2
      obtain ⟨t', ht'⟩ : ∃ t', renderLines (line' :: lines) ++ (crlf ++ body) = b :: t' := by
        rw [renderLines_cons, ht]
        exact ⟨_, rfl⟩
      have hb : b ≠ cr := by
        rintro rfl
        exact hline'.1 (by rw [ht]; exact List.mem_cons_self)
      have hlength := length_renderLines_cons line' lines
      show (position (crlf ++ crlf) (crlf ++ (renderLines (line' :: lines) ++
        (crlf ++ body)))).map _ = _
      rw [ht'] at hnext ⊢
      rw [position_crlf_cons hb, hnext, Option.map_some, Option.map_some]
      congr 1
      omega

/-- The head is found with its last line end. -/
theorem findHttpHeaderEnd_head {lines : List Str} (h : ∀ line ∈ lines, cr ∉ line ∧ line ≠ [])
    (hne : lines ≠ []) (body : Bytes) :
    findHttpHeaderEnd (renderLines lines ++ (crlf ++ body)) =
      some (renderLines lines ++ crlf).length := by
  obtain ⟨line, lines', rfl⟩ := List.exists_cons_of_ne_nil hne
  have hlength := length_renderLines_cons line lines'
  have hcrlf : crlf.length = 2 := rfl
  rw [findHttpHeaderEnd, position_head h hne, Option.map_some, List.length_append, hcrlf]
  congr 1
  omega

theorem splitLines_append (h : cr ∉ line) :
    splitLines (line ++ (crlf ++ rest)) = line :: splitLines rest := by
  induction line with
  | nil => rfl
  | cons b line ih =>
    rw [List.mem_cons, not_or] at h
    obtain ⟨b', t, ht⟩ : ∃ b' t, line ++ (crlf ++ rest) = b' :: t := by
      cases line with
      | nil => exact ⟨_, _, rfl⟩
      | cons b' line => exact ⟨_, _, rfl⟩
    have ih' := ih h.2
    rw [List.cons_append, ht, splitLines, if_neg (fun hb => h.1 hb.1.symm), ← ht, ih']

end Lines

/-! ### The request line and the names -/

/-- Splitting at the first separator. -/
theorem splitOnce_append {c : UInt8} {s : Str} (h : c ∉ s) (t : Str) :
    splitOnce c (s ++ c :: t) = some (s, t) := by
  have hnone : s.findIdx? (· == c) = none := by
    rw [List.findIdx?_eq_none_iff]
    intro b hb
    exact beq_eq_false_iff_ne.mpr fun hbc => h (hbc ▸ hb)
  have hfind : (s ++ c :: t).findIdx? (· == c) = some s.length := by
    rw [List.findIdx?_append, hnone, List.findIdx?_cons, if_pos (beq_self_eq_true c)]
    simp
  have hdrop : (s ++ c :: t).drop (s.length + 1) = t := by
    rw [← List.drop_drop, List.drop_left]
    rfl
  rw [splitOnce, hfind, Option.map_some, List.take_left, hdrop]

theorem splitOnce_eq_none {c : UInt8} {s : Str} (h : c ∉ s) : splitOnce c s = none := by
  rw [splitOnce, Option.map_eq_none_iff, List.findIdx?_eq_none_iff]
  intro b hb
  exact beq_eq_false_iff_ne.mpr fun hbc => h (hbc ▸ hb)

theorem rsplitOnce_append {c : UInt8} (s : Str) {t : Str} (h : c ∉ t) :
    rsplitOnce c (s ++ c :: t) = some (s, t) := by
  have hreverse : (s ++ c :: t).reverse = t.reverse ++ c :: s.reverse := by simp
  rw [rsplitOnce, hreverse, splitOnce_append (by rwa [List.mem_reverse])]
  simp

theorem rsplitOnce_eq_none {c : UInt8} {s : Str} (h : c ∉ s) : rsplitOnce c s = none := by
  rw [rsplitOnce, splitOnce_eq_none (by rwa [List.mem_reverse])]
  rfl

/-- The space. -/
def space : UInt8 := 0x20

/-- The three parts of a request line. -/
theorem looksLikeHttp1xRequestLine_render {method target : Str} {minor : UInt8}
    (hmethod : method ≠ []) (hupper : ∀ b ∈ method, isAsciiUppercase b = true)
    (htarget : target ≠ []) (hspace : space ∉ target) (hminor : minor = 0x30 ∨ minor = 0x31) :
    looksLikeHttp1xRequestLine (method ++ space :: (target ++ space :: httpVersion minor)) =
      true := by
  have hnotUpper : space ∉ method := fun hmem => by
    have hspaceUpper := hupper space hmem
    revert hspaceUpper
    decide
  have hversion : space ∉ httpVersion minor := by
    rcases hminor with rfl | rfl <;> decide
  have hsplit : (method ++ space :: (target ++ space :: httpVersion minor)).splitOn 0x20 =
      [method, target, httpVersion minor] := by
    show (method ++ space :: (target ++ space :: httpVersion minor)).splitOn space = _
    rw [List.splitOn_append_cons_self_of_not_mem hnotUpper,
      List.splitOn_append_cons_self_of_not_mem hspace, List.splitOn_eq_singleton hversion]
  rw [looksLikeHttp1xRequestLine, hsplit]
  have hvalid : (httpVersion minor == httpVersion 0x30 || httpVersion minor == httpVersion 0x31) =
      true := by
    rcases hminor with rfl | rfl <;> decide
  simp only [hvalid, Bool.and_true, Bool.and_eq_true, Bool.not_eq_true', List.isEmpty_eq_false_iff,
    List.all_eq_true]
  exact ⟨⟨hmethod, hupper⟩, htarget⟩

/-! ### White space -/

/-- A blank of a header value. -/
def IsBlank (b : UInt8) : Prop := b = 0x20 ∨ b = 0x09

/-- A byte that is neither the first nor the last of a white-space character. -/
def IsSolid (b : UInt8) : Prop :=
  ∀ c ∈ whitespaceChars, c.head? ≠ some b ∧ c.getLast? ≠ some b

/-- No character of the list begins with the byte. -/
theorem dropChars_of_head {chars : List Str} {b : UInt8} (hne : [] ∉ chars)
    (h : ∀ c ∈ chars, c.head? ≠ some b) (fuel : ℕ) (s : Str) :
    dropChars chars fuel (b :: s) = b :: s := by
  cases fuel with
  | zero => rfl
  | succ fuel =>
    have hnone : (chars.find? fun c => c.isPrefixOf (b :: s)) = none := by
      rw [List.find?_eq_none]
      intro c hc hpre
      cases c with
      | nil => exact hne hc
      | cons x c =>
        rw [List.isPrefixOf_iff_prefix, List.cons_prefix_cons] at hpre
        exact h _ hc (congrArg some hpre.1)
    rw [dropChars, hnone]

/-- Blanks in front of a byte that stays. -/
theorem dropChars_blanks {chars : List Str} {blanks s : Str} {b : UInt8} {fuel : ℕ}
    (hblank : ∀ x, IsBlank x → ∀ t, (chars.find? fun c => c.isPrefixOf (x :: t)) = some [x])
    (hblanks : ∀ x ∈ blanks, IsBlank x) (hstay : ∀ fuel, dropChars chars fuel (b :: s) = b :: s)
    (hfuel : blanks.length ≤ fuel) :
    dropChars chars fuel (blanks ++ b :: s) = b :: s := by
  induction blanks generalizing fuel with
  | nil => exact hstay fuel
  | cons x blanks ih =>
    rw [List.forall_mem_cons] at hblanks
    rw [List.length_cons] at hfuel
    obtain ⟨fuel, rfl⟩ : ∃ n, fuel = n + 1 := ⟨fuel - 1, by omega⟩
    rw [List.cons_append, dropChars, hblank x hblanks.1]
    exact ih hblanks.2 (by omega)

theorem find?_whitespaceChars {x : UInt8} (h : IsBlank x) (t : Str) :
    (whitespaceChars.find? fun c => c.isPrefixOf (x :: t)) = some [x] := by
  rcases h with rfl | rfl <;> rfl

theorem find?_whitespaceChars_reverse {x : UInt8} (h : IsBlank x) (t : Str) :
    ((whitespaceChars.map List.reverse).find? fun c => c.isPrefixOf (x :: t)) = some [x] := by
  rcases h with rfl | rfl <;> rfl

/-- Blanks around bytes that stay are trimmed. -/
theorem trim_blanks {leading core trailing : Str} (hleading : ∀ b ∈ leading, IsBlank b)
    (htrailing : ∀ b ∈ trailing, IsBlank b) (hne : core ≠ []) (hsolid : ∀ b ∈ core, IsSolid b) :
    trim (leading ++ core ++ trailing) = core := by
  have hfront : dropChars whitespaceChars (leading ++ core ++ trailing).length
      (leading ++ core ++ trailing) = core ++ trailing := by
    obtain ⟨b, t, rfl⟩ := List.exists_cons_of_ne_nil hne
    have hstay : ∀ fuel, dropChars whitespaceChars fuel (b :: (t ++ trailing)) =
        b :: (t ++ trailing) := fun fuel =>
      dropChars_of_head (by decide) (fun c hc => (hsolid b List.mem_cons_self c hc).1) fuel _
    rw [List.append_assoc]
    refine dropChars_blanks (fun x hx t => find?_whitespaceChars hx t) hleading hstay ?_
    rw [List.length_append]
    exact Nat.le_add_right _ _
  have hback : dropChars (whitespaceChars.map List.reverse) (core ++ trailing).length
      (core ++ trailing).reverse = core.reverse := by
    have hlength : trailing.reverse.length ≤ (core ++ trailing).length := by
      rw [List.length_reverse, List.length_append]
      exact Nat.le_add_left _ _
    have hblanks : ∀ x ∈ trailing.reverse, IsBlank x := fun x hx =>
      htrailing x (List.mem_reverse.mp hx)
    have hsolid' : ∀ b ∈ core.reverse, IsSolid b := fun b hb => hsolid b (List.mem_reverse.mp hb)
    rw [List.reverse_append]
    obtain ⟨b, t, ht⟩ := List.exists_cons_of_ne_nil (mt List.reverse_eq_nil_iff.mp hne)
    rw [ht] at hsolid' ⊢
    refine dropChars_blanks (fun x hx t => find?_whitespaceChars_reverse hx t) hblanks ?_ hlength
    refine fun fuel => dropChars_of_head (by decide) ?_ fuel t
    -- a reversed character begins with its last byte
    intro c hc
    obtain ⟨c', hc', rfl⟩ := List.mem_map.mp hc
    rw [List.head?_reverse]
    exact (hsolid' b List.mem_cons_self c' hc').2
  show (dropChars (whitespaceChars.map List.reverse)
    (dropChars whitespaceChars (leading ++ core ++ trailing).length _).length
    (dropChars whitespaceChars _ _).reverse).reverse = core
  rw [hfront, hback, List.reverse_reverse]

/-! ### The `Host` header -/

/-- The colon. -/
def colon : UInt8 := 0x3a

/-- What the value of a header takes from a byte of a valid host in any case. -/
theorem isSolid_of_hostByte {b : UInt8} (h : IsHostByte (toAsciiLowercase b)) :
    b ≠ colon ∧ b ≠ 0x5b ∧ b ≠ cr ∧ IsSolid b := by
  have hall : ∀ b : UInt8, ((0x61 ≤ toAsciiLowercase b ∧ toAsciiLowercase b ≤ 0x7a) ∨
      (0x30 ≤ toAsciiLowercase b ∧ toAsciiLowercase b ≤ 0x39) ∨ toAsciiLowercase b = hyphen ∨
      toAsciiLowercase b = dot) → b ≠ colon ∧ b ≠ 0x5b ∧ b ≠ cr ∧
      ∀ c ∈ whitespaceChars, c.head? ≠ some b ∧ c.getLast? ≠ some b := by
    decide +kernel
  exact hall b h

theorem isSolid_colon : IsSolid colon := by
  unfold IsSolid
  decide

theorem isSolid_of_digit {b : UInt8} (h : isAsciiDigit b = true) :
    b < 0x80 ∧ b ≠ colon ∧ b ≠ cr ∧ IsSolid b := by
  have hall : ∀ b : UInt8, isAsciiDigit b = true → b < 0x80 ∧ b ≠ colon ∧ b ≠ cr ∧
      ∀ c ∈ whitespaceChars, c.head? ≠ some b ∧ c.getLast? ≠ some b := by
    decide +kernel
  exact hall b h

/-- The bytes of the name `host` in any case. -/
theorem of_hostName {b : UInt8} (h : toAsciiLowercase b ∈ hostName) :
    b < 0x80 ∧ b ≠ colon ∧ b ≠ cr := by
  have hall : ∀ b : UInt8, toAsciiLowercase b ∈ hostName → b < 0x80 ∧ b ≠ colon ∧ b ≠ cr := by
    decide +kernel
  exact hall b h

/-- A `Host` header: its name in any case, blanks around a valid host, and possibly a port. -/
structure HostHeader where
  name : Str
  leading : Str
  host : Str
  port : Option Str
  trailing : Str
  name_eq : eqIgnoreAsciiCase name hostName = true
  leading_blank : ∀ b ∈ leading, IsBlank b
  host_valid : isValidSniHostname host = true
  port_digits : ∀ digits ∈ port, digits ≠ [] ∧ ∀ b ∈ digits, isAsciiDigit b = true
  trailing_blank : ∀ b ∈ trailing, IsBlank b

namespace HostHeader

variable (header : HostHeader)

/-- The port with its colon. -/
def portSuffix : Str :=
  match header.port with
  | none => []
  | some digits => colon :: digits

/-- The host with its port. -/
def authority : Str := header.host ++ header.portSuffix

/-- The text behind the colon of the header. -/
def value : Str := header.leading ++ header.authority ++ header.trailing

/-- The line of the header. -/
def line : Str := header.name ++ colon :: header.value

variable {header}

theorem host_bytes {b : UInt8} (h : b ∈ header.host) : IsHostByte (toAsciiLowercase b) := by
  have hvalid := header.host_valid
  rw [← isValidSniHostname_map_toAsciiLowercase] at hvalid
  exact (wellFormedHost_of_valid hvalid).bytes _ (List.mem_map_of_mem h)

theorem host_ne_nil : header.host ≠ [] := by
  intro hnil
  have hvalid := header.host_valid
  rw [hnil] at hvalid
  cases hvalid

theorem name_bytes {b : UInt8} (h : b ∈ header.name) : b < 0x80 ∧ b ≠ colon ∧ b ≠ cr := by
  refine of_hostName ?_
  have heq : header.name.map toAsciiLowercase = hostName.map toAsciiLowercase :=
    beq_iff_eq.mp header.name_eq
  have hlower : hostName.map toAsciiLowercase = hostName := by decide
  rw [← hlower, ← heq]
  exact List.mem_map_of_mem h

theorem portSuffix_bytes {b : UInt8} (h : b ∈ header.portSuffix) :
    b < 0x80 ∧ b ≠ cr ∧ IsSolid b := by
  rw [portSuffix] at h
  split at h
  · cases h
  · rename_i digits hport
    obtain rfl | hmem := List.mem_cons.mp h
    · exact ⟨by decide, by decide, isSolid_colon⟩
    · obtain ⟨hascii, -, hcr, hsolid⟩ :=
        isSolid_of_digit ((header.port_digits digits hport).2 b hmem)
      exact ⟨hascii, hcr, hsolid⟩

theorem authority_bytes {b : UInt8} (h : b ∈ header.authority) :
    b < 0x80 ∧ b ≠ cr ∧ IsSolid b := by
  obtain hmem | hmem := List.mem_append.mp h
  · obtain ⟨-, -, hcr, hsolid⟩ := isSolid_of_hostByte (host_bytes hmem)
    exact ⟨ascii_of_valid header.host_valid b hmem, hcr, hsolid⟩
  · exact portSuffix_bytes hmem

theorem isText_line : IsText header.line := by
  have hblank : ∀ b, IsBlank b → b < 0x80 ∧ b ≠ cr := by
    rintro b (rfl | rfl) <;> decide
  have hleading : IsText header.leading :=
    isText_of_ascii fun b hb => hblank b (header.leading_blank b hb)
  have hauthority : IsText header.authority :=
    isText_of_ascii fun b hb => ⟨(authority_bytes hb).1, (authority_bytes hb).2.1⟩
  have htrailing : IsText header.trailing :=
    isText_of_ascii fun b hb => hblank b (header.trailing_blank b hb)
  have hname : IsText header.name :=
    isText_of_ascii fun b hb => ⟨(name_bytes hb).1, (name_bytes hb).2.2⟩
  have hcolon : IsText [colon] := ⟨rfl, by decide⟩
  exact hname.append (hcolon.append ((hleading.append hauthority).append htrailing))

/-- The port is taken off. -/
theorem withoutPort_authority : withoutPort header.authority = header.host := by
  have hhost : colon ∉ header.host := fun hmem =>
    (isSolid_of_hostByte (host_bytes hmem)).1 rfl
  rw [authority, portSuffix]
  split
  · rw [List.append_nil, withoutPort, show (0x3a : UInt8) = colon from rfl,
      rsplitOnce_eq_none hhost]
  · rename_i digits hport
    obtain ⟨hne, hdigits⟩ := header.port_digits digits hport
    have hcolon : colon ∉ digits := fun hmem => (isSolid_of_digit (hdigits _ hmem)).2.1 rfl
    have hcond : (!header.host.isEmpty && !digits.isEmpty && digits.all isAsciiDigit) = true := by
      simp only [Bool.and_eq_true, Bool.not_eq_true', List.isEmpty_eq_false_iff, List.all_eq_true]
      exact ⟨⟨host_ne_nil, hne⟩, hdigits⟩
    rw [withoutPort, show (0x3a : UInt8) = colon from rfl, rsplitOnce_append header.host hcolon]
    exact if_pos hcond

/-- **The value of the header** gives the host in lower case. -/
theorem parseHttpHostHeaderValue_value :
    parseHttpHostHeaderValue header.value = .ok (header.host.map toAsciiLowercase) := by
  have hne : header.authority ≠ [] := fun hnil =>
    host_ne_nil (List.append_eq_nil_iff.mp hnil).1
  have htrim : trim header.value = header.authority :=
    trim_blanks header.leading_blank header.trailing_blank hne fun b hb => (authority_bytes hb).2.2
  have hhost : trim header.host = header.host := by
    have htrim' : trim ([] ++ header.host ++ []) = header.host :=
      trim_blanks (List.forall_mem_nil _) (List.forall_mem_nil _) host_ne_nil
        fun b hb => (isSolid_of_hostByte (host_bytes hb)).2.2.2
    rwa [List.nil_append, List.append_nil] at htrim'
  have hhead : header.authority.head? ≠ some 0x5b := by
    obtain ⟨b, t, ht⟩ := List.exists_cons_of_ne_nil header.host_ne_nil
    have hb : b ∈ header.host := by
      rw [ht]
      exact List.mem_cons_self
    rw [authority, ht, List.cons_append, List.head?_cons]
    rintro ⟨rfl⟩
    exact (isSolid_of_hostByte (host_bytes hb)).2.1 rfl
  have hvalid : isValidSniHostname (header.host.map toAsciiLowercase) = true := by
    rw [isValidSniHostname_map_toAsciiLowercase]
    exact header.host_valid
  rw [parseHttpHostHeaderValue, htrim, withoutPort_authority, hhost, if_neg hhead, if_pos hvalid]
  refine if_neg ?_
  rw [List.isEmpty_iff]
  exact hne

end HostHeader

/-! ### Requests -/

/-- A header with another name than `host`. -/
structure OtherHeader where
  name : Str
  value : Str
  text : IsText (name ++ colon :: value)
  colon_not_mem : colon ∉ name
  name_ne : eqIgnoreAsciiCase name hostName = false

/-- The line of the header. -/
def OtherHeader.line (header : OtherHeader) : Str := header.name ++ colon :: header.value

/-- The head of a request with a `Host` header. What stands behind that header need not be split
into names and values. -/
structure HttpRequest where
  method : Str
  target : Str
  minor : UInt8
  before : List OtherHeader
  host : HostHeader
  after : List Str
  method_ne_nil : method ≠ []
  method_upper : ∀ b ∈ method, isAsciiUppercase b = true
  target_ne_nil : target ≠ []
  target_text : IsText target
  space_not_mem : space ∉ target
  minor_eq : minor = 0x30 ∨ minor = 0x31
  after_text : ∀ line ∈ after, line ≠ [] ∧ IsText line

namespace HttpRequest

variable (req : HttpRequest)

/-- The request line. -/
def requestLine : Str := req.method ++ space :: (req.target ++ space :: httpVersion req.minor)

/-- The lines in front of the empty one. -/
def lines : List Str :=
  req.requestLine :: (req.before.map OtherHeader.line ++ req.host.line :: req.after)

/-- The head with the empty line at its end. -/
def head : Bytes := renderLines req.lines ++ crlf

theorem isText_requestLine : IsText req.requestLine := by
  have hmethod : IsText req.method := by
    have hall : ∀ b : UInt8, isAsciiUppercase b = true → b < 0x80 ∧ b ≠ cr := by decide +kernel
    exact isText_of_ascii fun b hb => hall b (req.method_upper b hb)
  have hspace : IsText [space] := ⟨rfl, by decide⟩
  have hversion : IsText (httpVersion req.minor) := by
    obtain hminor | hminor := req.minor_eq
    · rw [hminor]
      exact ⟨rfl, by decide⟩
    · rw [hminor]
      exact ⟨rfl, by decide⟩
  exact hmethod.append (hspace.append (req.target_text.append (hspace.append hversion)))

/-- Every line is text and is not empty. -/
theorem lines_text {line : Str} (h : line ∈ req.lines) : line ≠ [] ∧ IsText line := by
  rw [lines, List.mem_cons, List.mem_append, List.mem_map, List.mem_cons] at h
  obtain rfl | ⟨header, -, rfl⟩ | rfl | hafter := h
  · exact ⟨List.append_ne_nil_of_right_ne_nil _ (List.cons_ne_nil _ _), req.isText_requestLine⟩
  · exact ⟨List.append_ne_nil_of_right_ne_nil _ (List.cons_ne_nil _ _), header.text⟩
  · exact ⟨List.append_ne_nil_of_right_ne_nil _ (List.cons_ne_nil _ _), req.host.isText_line⟩
  · exact req.after_text line hafter

theorem looksLike_requestLine : looksLikeHttp1xRequestLine req.requestLine = true :=
  looksLikeHttp1xRequestLine_render req.method_ne_nil req.method_upper req.target_ne_nil
    req.space_not_mem req.minor_eq

/-- One header of the loop. -/
theorem hostLoop_cons {name : Str} (h : colon ∉ name) (value : Str) (rest : List Str) :
    hostLoop ((name ++ colon :: value) :: rest) =
      if eqIgnoreAsciiCase name hostName then parseHttpHostHeaderValue value
      else hostLoop rest := by
  have hne : ¬ (name ++ colon :: value).isEmpty = true := by
    rw [List.isEmpty_iff]
    exact List.append_ne_nil_of_right_ne_nil _ (List.cons_ne_nil _ _)
  have honce : splitOnce 0x3a (name ++ colon :: value) = some (name, value) :=
    splitOnce_append h value
  rw [hostLoop, if_neg hne, honce]

/-- The loop passes the headers in front of the `Host` header. -/
theorem hostLoop_before (before : List OtherHeader) (rest : Bytes) :
    hostLoop (splitLines (renderLines (before.map OtherHeader.line) ++ rest)) =
      hostLoop (splitLines rest) := by
  induction before with
  | nil => rfl
  | cons header before ih =>
    have hsplit : splitLines (renderLines ((header :: before).map OtherHeader.line) ++ rest) =
        header.line :: splitLines (renderLines (before.map OtherHeader.line) ++ rest) := by
      rw [List.map_cons, renderLines_cons, List.append_assoc, List.append_assoc]
      exact splitLines_append header.text.cr_not_mem
    have hname : ¬ eqIgnoreAsciiCase header.name hostName = true := by
      rw [header.name_ne]
      exact Bool.false_ne_true
    rw [hsplit, OtherHeader.line, hostLoop_cons header.colon_not_mem, if_neg hname, ih]

/-- The loop stops at the `Host` header. -/
theorem hostLoop_host (header : HostHeader) (rest : Bytes) :
    hostLoop (splitLines (header.line ++ (crlf ++ rest))) =
      .ok (header.host.map toAsciiLowercase) := by
  have hcolon : colon ∉ header.name := fun hmem => (HostHeader.name_bytes hmem).2.1 rfl
  rw [splitLines_append header.isText_line.cr_not_mem, HostHeader.line, hostLoop_cons hcolon,
    if_pos header.name_eq, HostHeader.parseHttpHostHeaderValue_value]

/-- The complete head gives the host. -/
theorem parseHeader_head : parseHeader req.head = .ok (req.host.host.map toAsciiLowercase) := by
  have hutf8 : fromUtf8 req.head = some req.head := by
    refine if_pos ?_
    rw [head, utf8Loop_append (utf8_renderLines fun line hline => (req.lines_text hline).2)]
    rfl
  have hlines : req.head = req.requestLine ++ (crlf ++
      (renderLines (req.before.map OtherHeader.line) ++ (req.host.line ++ (crlf ++
        (renderLines req.after ++ crlf))))) := by
    simp only [head, lines, renderLines, List.flatMap_cons, List.flatMap_append, List.append_assoc]
  have hsplit : splitLines req.head = req.requestLine ::
      splitLines (renderLines (req.before.map OtherHeader.line) ++ (req.host.line ++ (crlf ++
        (renderLines req.after ++ crlf)))) := by
    rw [hlines]
    exact splitLines_append req.isText_requestLine.cr_not_mem
  rw [parseHeader, hutf8]
  dsimp only
  rw [hsplit]
  dsimp only
  rw [if_pos req.looksLike_requestLine, hostLoop_before, hostLoop_host]

end HttpRequest

/-- **The host of a request.** On every request with a `Host` header the sniffer finds the host of
the first one in lower case. The largest length of a head, the headers behind it and the bytes
behind the head have no part in it. -/
theorem sniffHttpHostFromPrefix_head (req : HttpRequest) (body : Bytes) (maxLen : ℕ) :
    sniffHttpHostFromPrefix (req.head ++ body) maxLen =
      .ok (req.host.host.map toAsciiLowercase) := by
  have hrequest : req.head ++ body = req.requestLine ++ (crlf ++ (renderLines
      (req.before.map OtherHeader.line ++ req.host.line :: req.after) ++ (crlf ++ body))) := by
    simp only [HttpRequest.head, HttpRequest.lines, renderLines_cons, List.append_assoc]
  obtain ⟨first, method, hmethod⟩ := List.exists_cons_of_ne_nil req.method_ne_nil
  obtain ⟨rest, hfirst⟩ : ∃ rest, req.head ++ body = first :: rest := by
    rw [hrequest, HttpRequest.requestLine, hmethod]
    exact ⟨_, rfl⟩
  have hupper : isAsciiUppercase first = true := by
    refine req.method_upper first ?_
    rw [hmethod]
    exact List.mem_cons_self
  have hline : definitelyNotHttp1xPrefix (req.head ++ body) = false := by
    have htext := req.isText_requestLine
    have hutf8 : fromUtf8 req.requestLine = some req.requestLine := if_pos htext.utf8
    rw [definitelyNotHttp1xPrefix, hrequest, position_crlf htext.cr_not_mem]
    dsimp only
    rw [List.take_left, hutf8]
    dsimp only
    rw [req.looksLike_requestLine, Bool.not_true]
  have hend : findHttpHeaderEnd (req.head ++ body) = some req.head.length := by
    rw [HttpRequest.head, List.append_assoc]
    refine findHttpHeaderEnd_head (fun line hmem => ?_) (List.cons_ne_nil _ _) body
    exact ⟨(req.lines_text hmem).2.cr_not_mem, (req.lines_text hmem).1⟩
  have htake : (req.head ++ body).take req.head.length = req.head := List.take_left
  rw [hfirst] at hline hend htake ⊢
  rw [sniffHttpHostFromPrefix, hupper, hline, hend]
  dsimp only
  rw [if_neg (by simp), if_neg (by simp), htake, req.parseHeader_head]

/-- A request with `Host: A.cn:80`. -/
example : ∃ req : HttpRequest, req.host.host.map toAsciiLowercase = [0x61, 0x2e, 0x63, 0x6e] ∧
    req.head = [0x47, 0x45, 0x54, 0x20, 0x2f, 0x20, 0x48, 0x54, 0x54, 0x50, 0x2f, 0x31, 0x2e, 0x31,
      0x0d, 0x0a, 0x48, 0x6f, 0x73, 0x74, 0x3a, 0x20, 0x41, 0x2e, 0x63, 0x6e, 0x3a, 0x38, 0x30,
      0x0d, 0x0a, 0x0d, 0x0a] := by
  let header : HostHeader :=
    { name := [0x48, 0x6f, 0x73, 0x74]
      leading := [0x20]
      host := [0x41, 0x2e, 0x63, 0x6e]
      port := some [0x38, 0x30]
      trailing := []
      name_eq := by decide
      leading_blank := by simp [IsBlank]
      host_valid := by decide
      port_digits := by simp [isAsciiDigit]
      trailing_blank := List.forall_mem_nil _ }
  refine ⟨⟨[0x47, 0x45, 0x54], [0x2f], 0x31, [], header, [], List.cons_ne_nil _ _, ?_,
    List.cons_ne_nil _ _, ⟨rfl, by decide⟩, by decide, .inr rfl, List.forall_mem_nil _⟩, rfl, rfl⟩
  simp [isAsciiUppercase]

end XtpRs.Sniff
