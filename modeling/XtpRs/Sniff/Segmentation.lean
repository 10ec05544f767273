import XtpRs.Sniff.Http
import XtpRs.Sniff.TlsRecords

/-!
# Segments of a TCP stream

How a stream is cut into segments decides at which prefixes the TCP sniffers look. What they decide
does not depend on it.

## Main results

* `tcp_sniff_stable`: decisions of the TLS and the HTTP sniffer are stable, and the hosts they find
  are determined by the bytes of the client.
-/

namespace XtpRs.Sniff

open Lib

theorem TlsSniffer.classify_of_settled {buf buf' : Bytes} {maxLen : ℕ}
    (h : TlsSettled (sniffTlsSniFromPrefix buf maxLen) (sniffTlsSniFromPrefix buf' maxLen))
    (hdecided : classify buf maxLen ≠ .needMore) : classify buf' maxLen = classify buf maxLen := by
  obtain hmore | heq := h
  · rw [classify, hmore] at hdecided
    exact absurd rfl hdecided
  · rw [classify, heq, ← classify]

theorem HttpSniffer.classify_of_settled {buf buf' : Bytes} {maxLen : ℕ}
    (h : Settled HttpSniffError.insufficientPrefix (sniffHttpHostFromPrefix buf maxLen)
      (sniffHttpHostFromPrefix buf' maxLen))
    (hdecided : classify buf maxLen ≠ .needMore) : classify buf' maxLen = classify buf maxLen := by
  obtain hmore | heq := h
  · rw [classify, hmore] at hdecided
    exact absurd rfl hdecided
  · rw [classify, heq, ← classify]

/-- The TLS sniffer is stable without a bound on the lengths. -/
theorem TlsSniffer.classify_stable (maxLen : ℕ) (p s : Bytes) (hne : p ≠ []) (hpre : p <+: s)
    (hdecided : classify p maxLen ≠ .needMore) : classify s maxLen = classify p maxLen := by
  obtain ⟨rest, rfl⟩ := hpre
  exact classify_of_settled (settled_sniffTlsSniFromPrefix hne rest maxLen) hdecided

theorem HttpSniffer.classify_stable (maxLen : ℕ) (p s : Bytes) (hne : p ≠ []) (hpre : p <+: s)
    (hmax : s.length ≤ maxLen) (hdecided : classify p maxLen ≠ .needMore) :
    classify s maxLen = classify p maxLen := by
  obtain ⟨rest, rfl⟩ := hpre
  exact classify_of_settled (settled_sniffHttpHostFromPrefix hne rest hmax) hdecided

/-- The TCP sniffers of `build_sniffers`. -/
inductive IsTcpSniffer : Sniffer → Prop
  | tls (s : TlsSniffer) : IsTcpSniffer s.toSniffer
  | http (s : HttpSniffer) : IsTcpSniffer s.toSniffer

theorem IsTcpSniffer.stable {engine : Sniffer} (h : IsTcpSniffer engine) (maxLen : ℕ) :
    engine.Stable maxLen := by
  cases h with
  | tls s => exact fun p t hne hpre _ => TlsSniffer.classify_stable maxLen p t hne hpre
  | http s => exact HttpSniffer.classify_stable maxLen

theorem IsTcpSniffer.classify_nil {engine : Sniffer} (h : IsTcpSniffer engine) (maxLen : ℕ)
    (host : Str) : engine.classify [] maxLen ≠ .matched host := by
  cases h with
  | tls s => exact fun hmatched => by cases hmatched
  | http s => exact fun hmatched => by cases hmatched

/-- **Sniffing is stable under more data.** Whatever the TLS sniffer decides on a non-empty prefix,
and the HTTP sniffer on a prefix of at most `maxLen` bytes, it decides on every extension; and two
runs of a sniffer over the same bytes that find a host find the same one. -/
theorem tcp_sniff_stable :
    (∀ maxLen p s, p ≠ [] → p <+: s → TlsSniffer.classify p maxLen ≠ .needMore →
      TlsSniffer.classify s maxLen = TlsSniffer.classify p maxLen) ∧
    (∀ maxLen p s, p ≠ [] → p <+: s → s.length ≤ maxLen →
      HttpSniffer.classify p maxLen ≠ .needMore →
      HttpSniffer.classify s maxLen = HttpSniffer.classify p maxLen) ∧
    ∀ engine, IsTcpSniffer engine → ∀ cfg client rounds rounds' host host',
      sniffWithEngine engine cfg client rounds = some host →
      sniffWithEngine engine cfg client rounds' = some host' → host = host' := by
  refine ⟨TlsSniffer.classify_stable, HttpSniffer.classify_stable, ?_⟩
  intro engine hengine cfg client rounds rounds' host host'
  exact sniffWithEngine_unique (hengine.stable _) (hengine.classify_nil _)

/-- `GET / HTTP/1.1` with the host `A.cn`. -/
def sampleRequest : Bytes :=
  [0x47, 0x45, 0x54, 0x20, 0x2f, 0x20, 0x48, 0x54, 0x54, 0x50, 0x2f, 0x31, 0x2e, 0x31, 0x0d, 0x0a,
    0x48, 0x6f, 0x73, 0x74, 0x3a, 0x20, 0x41, 0x2e, 0x63, 0x6e, 0x3a, 0x38, 0x30, 0x0d, 0x0a, 0x0d,
    0x0a]

/-- A request that arrives in three segments, and every other way in which it can arrive. -/
theorem tcp_sniff_stable_sampleRequest :
    sniffWithEngine (HttpSniffer.toSniffer ⟨8, 512, 5⟩) ⟨512⟩ sampleRequest
      [⟨some 3, [some 3, some 10]⟩, ⟨some 12, [some 33]⟩, ⟨some 33, [some 33]⟩, ⟨some 33, []⟩] =
        some [0x61, 0x2e, 0x63, 0x6e] ∧
    ∀ rounds host, sniffWithEngine (HttpSniffer.toSniffer ⟨8, 512, 5⟩) ⟨512⟩ sampleRequest rounds =
      some host → host = [0x61, 0x2e, 0x63, 0x6e] := by
  have hrun : sniffWithEngine (HttpSniffer.toSniffer ⟨8, 512, 5⟩) ⟨512⟩ sampleRequest
      [⟨some 3, [some 3, some 10]⟩, ⟨some 12, [some 33]⟩, ⟨some 33, [some 33]⟩, ⟨some 33, []⟩] =
        some [0x61, 0x2e, 0x63, 0x6e] := by
    decide +kernel
  refine ⟨hrun, fun rounds host hhost => ?_⟩
  exact tcp_sniff_stable.2.2 _ (.http _) _ _ _ _ _ _ hhost hrun

end XtpRs.Sniff
