import XtpRs.Lib.Except
import XtpRs.Net.Text
import XtpRs.Sniff.Tcp
import XtpRs.Sniff.Tls

/-!
# HTTP requests

`sniff_http_host_from_prefix` of `src/sniff/http.rs` takes the value of the `Host` header out of the
head of an HTTP/1.x request. It is given a prefix of what the client sends, refuses it as soon as
the first line cannot be a request line, and asks for more as long as the head is not complete.

## Main definitions

* `sniffHttpHostFromPrefix`, `HttpSniffer.toSniffer`.

## Main results

* `settled_sniffHttpHostFromPrefix`: what is decided on a prefix stays decided, below the largest
  length of a head.
-/

namespace XtpRs.Sniff

open Lib Routing

/-- `HttpSniffError`. -/
inductive HttpSniffError
  | peekEmpty
  | insufficientPrefix
  | protocolNotMatched
  | httpNoHost
  | parseError
  | invalidHostname
  | tooLargeHeader
  deriving DecidableEq, Repr

/-! ### Strings -/

/-- The end of a line. -/
def crlf : Bytes := [0x0d, 0x0a]

/-- `windows(n).position(|w| w == pattern)` for a pattern of `n` bytes. -/
def position (pattern : Bytes) : Bytes → Option ℕ
  | [] => none
  | b :: rest =>
    if pattern.isPrefixOf (b :: rest) then some 0 else (position pattern rest).map (· + 1)

/-- `str::split` at the ends of lines. -/
def splitLines : Str → List Str
  | [] => [[]]
  | [b] => [[b]]
  | b :: b' :: rest =>
    if b = 0x0d ∧ b' = 0x0a then [] :: splitLines rest
    else
      match splitLines (b' :: rest) with
      | [] => [[b]]
      | line :: lines => (b :: line) :: lines

/-- `str::split_once`. -/
def splitOnce (c : UInt8) (s : Str) : Option (Str × Str) :=
  (s.findIdx? (· == c)).map fun i => (s.take i, s.drop (i + 1))

/-- `str::rsplit_once`. -/
def rsplitOnce (c : UInt8) (s : Str) : Option (Str × Str) :=
  (splitOnce c s.reverse).map fun r => (r.2.reverse, r.1.reverse)

def isAsciiUppercase (b : UInt8) : Bool := decide (0x41 ≤ b ∧ b ≤ 0x5a)

def isAsciiDigit (b : UInt8) : Bool := decide (0x30 ≤ b ∧ b ≤ 0x39)

/-! ### The code -/

/-- `find_http_header_end`. -/
def findHttpHeaderEnd (buf : Bytes) : Option ℕ :=
  (position (crlf ++ crlf) buf).map (· + 4)

/-- The version `HTTP/1.` with the given last digit. -/
def httpVersion (digit : UInt8) : Str := [0x48, 0x54, 0x54, 0x50, 0x2f, 0x31, 0x2e, digit]

/-- `looks_like_http_1x_request_line`. -/
def looksLikeHttp1xRequestLine (line : Str) : Bool :=
  match line.splitOn 0x20 with
  | [method, target, version] =>
    !method.isEmpty && method.all isAsciiUppercase && !target.isEmpty &&
      (version == httpVersion 0x30 || version == httpVersion 0x31)
  | _ => false

/-- The name in a `Host` header, with or without a port behind it. -/
def withoutPort (value : Str) : Str :=
  match rsplitOnce 0x3a value with
  | some (name, port) =>
    if !name.isEmpty && !port.isEmpty && port.all isAsciiDigit then name else value
  | none => value

/-- `parse_http_host_header_value`. -/
def parseHttpHostHeaderValue (value : Str) : Except HttpSniffError Str :=
  let value := trim value
  if value.isEmpty then .error .parseError
  else if value.head? = some 0x5b then .error .invalidHostname
  else
    let host := (trim (withoutPort value)).map toAsciiLowercase
    if isValidSniHostname host then .ok host else .error .invalidHostname

/-- `definitely_not_http_1x_prefix`. -/
def definitelyNotHttp1xPrefix (buf : Bytes) : Bool :=
  match position crlf buf with
  | none => false
  | some lineEnd =>
    match fromUtf8 (buf.take lineEnd) with
    | none => true
    | some line => !looksLikeHttp1xRequestLine line

/-- The name `host`. -/
def hostName : Str := [0x68, 0x6f, 0x73, 0x74]

/-- The loop over the header lines. -/
def hostLoop : List Str → Except HttpSniffError Str
  | [] => .error .httpNoHost
  | line :: rest =>
    if line.isEmpty then .error .httpNoHost
    else
      match splitOnce 0x3a line with
      | none => .error .parseError
      | some (name, value) =>
        if eqIgnoreAsciiCase name hostName then parseHttpHostHeaderValue value else hostLoop rest

/-- The host of a complete head. -/
def parseHeader (header : Bytes) : Except HttpSniffError Str :=
  match fromUtf8 header with
  | none => .error .protocolNotMatched
  | some header =>
    match splitLines header with
    | [] => .error .parseError
    | requestLine :: lines =>
      if looksLikeHttp1xRequestLine requestLine then hostLoop lines else .error .protocolNotMatched

/-- `sniff_http_host_from_prefix`. -/
def sniffHttpHostFromPrefix (buf : Bytes) (maxHeaderSize : ℕ) : Except HttpSniffError Str :=
  match buf with
  | [] => .error .peekEmpty
  | first :: _ =>
    if !isAsciiUppercase first then .error .protocolNotMatched
    else if definitelyNotHttp1xPrefix buf then .error .protocolNotMatched
    else
      match findHttpHeaderEnd buf with
      | none =>
        if maxHeaderSize ≤ buf.length then .error .tooLargeHeader else .error .insufficientPrefix
      | some headerEnd => parseHeader (buf.take headerEnd)

/-- `HttpSniffer`. -/
structure HttpSniffer where
  peekLen : ℕ
  maxLen : ℕ
  maxRetries : ℕ

/-- `HttpSniffer::classify`. -/
def HttpSniffer.classify (buf : Bytes) (maxLen : ℕ) : SniffAttempt :=
  match sniffHttpHostFromPrefix buf maxLen with
  | .ok host => .matched host
  | .error .insufficientPrefix => .needMore
  | .error .peekEmpty => .abort .peekEmpty
  | .error .protocolNotMatched => .abort .protocolNotMatched
  | .error .httpNoHost => .abort .noTarget
  | .error .parseError => .abort .parseError
  | .error .invalidHostname => .abort .invalidHostname
  | .error .tooLargeHeader => .abort .tooLarge

/-- The implementation of `Sniffer`. -/
def HttpSniffer.toSniffer (s : HttpSniffer) : Sniffer where
  initialPeekLen := s.peekLen
  maxPeekLen := s.maxLen
  maxRetries := s.maxRetries
  classify := classify

/-! ### Longer prefixes -/

variable {pattern buf : Bytes}

theorem position_le {i : ℕ} (h : position pattern buf = some i) :
    i + pattern.length ≤ buf.length := by
  induction buf generalizing i with
  | nil => cases h
  | cons b buf ih =>
    rw [position] at h
    split_ifs at h with hp
    · cases h
      rw [Nat.zero_add]
      exact (List.isPrefixOf_iff_prefix.mp hp).length_le
    · obtain ⟨j, hj, rfl⟩ := Option.map_eq_some_iff.mp h
      have hle := ih hj
      rw [List.length_cons]
      omega

/-- A pattern is found at the same place in a longer buffer. -/
theorem position_append {i : ℕ} (h : position pattern buf = some i) (rest : Bytes) :
    position pattern (buf ++ rest) = some i := by
  induction buf generalizing i with
  | nil => cases h
  | cons b buf ih =>
    have hle := position_le h
    -- the pattern fits into the shorter buffer, so it stands at its front in both or in neither
    have hiff : pattern.isPrefixOf (b :: (buf ++ rest)) = pattern.isPrefixOf (b :: buf) := by
      rw [Bool.eq_iff_iff, List.isPrefixOf_iff_prefix, List.isPrefixOf_iff_prefix]
      have happend : b :: buf <+: b :: (buf ++ rest) := List.prefix_append (b :: buf) rest
      refine ⟨fun hp => ?_, fun hp => hp.trans happend⟩
      exact List.prefix_of_prefix_length_le hp happend (by omega)
    rw [position] at h
    rw [List.cons_append, position, hiff]
    split_ifs at h ⊢ with hp
    · exact h
    · obtain ⟨j, hj, rfl⟩ := Option.map_eq_some_iff.mp h
      rw [ih hj, Option.map_some]

/-- Where a pattern is found, its beginning is found. -/
theorem exists_position_of_append {tail : Bytes} {i : ℕ}
    (h : position (pattern ++ tail) buf = some i) : ∃ j, position pattern buf = some j := by
  induction buf generalizing i with
  | nil => cases h
  | cons b buf ih =>
    rw [position] at h ⊢
    by_cases hp : pattern.isPrefixOf (b :: buf) = true
    · exact ⟨0, if_pos hp⟩
    · split_ifs at h with hlong
      · refine absurd (List.isPrefixOf_iff_prefix.mpr ?_) hp
        exact (List.prefix_append pattern tail).trans (List.isPrefixOf_iff_prefix.mp hlong)
      · obtain ⟨j, hj, -⟩ := Option.map_eq_some_iff.mp h
        obtain ⟨k, hk⟩ := ih hj
        exact ⟨k + 1, by rw [if_neg hp, hk, Option.map_some]⟩

theorem definitelyNotHttp1xPrefix_append {i : ℕ} (h : position crlf buf = some i) (rest : Bytes) :
    definitelyNotHttp1xPrefix (buf ++ rest) = definitelyNotHttp1xPrefix buf := by
  have hle := position_le h
  rw [definitelyNotHttp1xPrefix, definitelyNotHttp1xPrefix, h, position_append h]
  dsimp only
  rw [List.take_append_of_le_length (by omega)]

/-- **Longer prefixes.** What is decided on a non-empty prefix stays decided when more bytes follow,
as long as they are no more than the largest length of a head. -/
theorem settled_sniffHttpHostFromPrefix {maxLen : ℕ} (hne : buf ≠ []) (rest : Bytes)
    (hmax : (buf ++ rest).length ≤ maxLen) :
    Settled HttpSniffError.insufficientPrefix (sniffHttpHostFromPrefix buf maxLen)
      (sniffHttpHostFromPrefix (buf ++ rest) maxLen) := by
  rw [List.length_append] at hmax
  obtain ⟨first, tail, rfl⟩ := List.exists_cons_of_ne_nil hne
  by_cases hrest : rest = []
  · rw [hrest, List.append_nil]
    exact .refl _
  · have hpos : 0 < rest.length := List.length_pos_iff.mpr hrest
    rw [sniffHttpHostFromPrefix, List.cons_append, sniffHttpHostFromPrefix, ← List.cons_append]
    refine .ite Iff.rfl (fun _ => .refl _) fun _ => ?_
    cases hend : findHttpHeaderEnd (first :: tail) with
    | none =>
      -- without the end of the head, only the first line can decide
      by_cases hnot : definitelyNotHttp1xPrefix (first :: tail) = true
      · cases hline : position crlf (first :: tail) with
        | none =>
          rw [definitelyNotHttp1xPrefix, hline] at hnot
          cases hnot
        | some lineEnd =>
          rw [definitelyNotHttp1xPrefix_append hline, if_pos hnot, if_pos hnot]
          exact .refl _
      · rw [if_neg hnot, if_neg (by omega)]
        exact .of_more
    | some headerEnd =>
      obtain ⟨i, hi, rfl⟩ := Option.map_eq_some_iff.mp hend
      obtain ⟨lineEnd, hline⟩ := exists_position_of_append hi
      have hle := position_le hi
      have hend' : findHttpHeaderEnd (first :: tail ++ rest) = some (i + 4) := by
        rw [findHttpHeaderEnd, position_append hi, Option.map_some]
      have hlength : (crlf ++ crlf).length = 4 := rfl
      rw [definitelyNotHttp1xPrefix_append hline, hend']
      dsimp only
      rw [List.take_append_of_le_length (by omega)]
      exact .refl _

end XtpRs.Sniff
