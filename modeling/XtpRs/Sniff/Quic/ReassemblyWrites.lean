import XtpRs.Lib.Overlay
import XtpRs.Sniff.Quic.Reassembly

/-!
# Runs of writes to the reassembly buffer

`QuicCryptoReassembly` stands for a partial function: the bytes that have been written so far, each
at its position. `view` reads this function off a state. A call of `write` that succeeds lays its
data over it, and a call that fails changes nothing, so after any calls the state holds the overlay
of the calls that returned `Ok`.

## Main definitions

* `QuicCryptoReassembly.view`: the bytes that are there.
* `QuicCryptoReassembly.Represents`: the state holds the overlay of some writes.
* `QuicCryptoReassembly.writes`, `QuicCryptoReassembly.succeeded`: the state after some calls of
  `write`, and the calls among them that returned `Ok`.

## Main results

* `QuicCryptoReassembly.Represents.store`, `QuicCryptoReassembly.Represents.writes`: one write, and
  any calls.
* `QuicCryptoReassembly.Represents.getElem?_contiguous`: the contiguous part has no gap.
* `QuicCryptoReassembly.writes_representation`: the state after any calls from the empty one.
-/

namespace XtpRs.Sniff

open Lib

namespace QuicCryptoReassembly

/-- The byte at a position, if it is there. -/
def view (c : QuicCryptoReassembly) (i : ℕ) : Option UInt8 :=
  if c.present[i]? = some true then c.buf[i]? else none

/-- The state after some calls of `write`. -/
def writes (target : Target) (c : QuicCryptoReassembly) (calls : List (Write UInt8)) :
    QuicCryptoReassembly :=
  calls.foldl (fun c w => (c.write target w.offset w.data).2) c

/-- The calls that return `Ok`. -/
def succeeded (target : Target) : QuicCryptoReassembly → List (Write UInt8) → List (Write UInt8)
  | _, [] => []
  | c, w :: calls =>
    match c.write target w.offset w.data with
    | (.ok _, c) => w :: succeeded target c calls
    | (.error _, c) => succeeded target c calls

/-- The state keeps its invariant and holds the overlay of the writes. -/
structure Represents (ws : List (Write UInt8)) (c : QuicCryptoReassembly) : Prop where
  wf : Wf c
  view_eq : ∀ i, c.view i = overlay ws i

variable {target : Target} {c : QuicCryptoReassembly} {ws : List (Write UInt8)} {w : Write UInt8}

/-- The part of the buffer without a gap is the longest one. -/
theorem Wf.isGreatest_contiguousLen (h : Wf c) :
    IsGreatest {n | ∀ i < n, c.present[i]? = some true} c.contiguousLen := by
  refine ⟨h.contiguous, fun n hn => ?_⟩
  by_contra hlt
  exact h.gap (hn c.contiguousLen (not_le.mp hlt))

theorem view_of_present {i : ℕ} (h : c.present[i]? = some true) : c.view i = c.buf[i]? := if_pos h

/-- A position is there if there is a byte at it. -/
theorem Wf.view_eq_none_iff (h : Wf c) {i : ℕ} : c.view i = none ↔ c.present[i]? ≠ some true := by
  constructor
  · intro hnone hpresent
    have hlt := (List.getElem?_eq_some_iff.mp hpresent).1
    rw [view_of_present hpresent, List.getElem?_eq_none_iff, ← h.length_eq] at hnone
    omega
  · exact fun hnot => if_neg hnot

/-- The bytes after a write within the capacity. -/
theorem Wf.view_store (h : Wf c) (i : ℕ) :
    (c.store w.offset w.data).view i =
      if w.Covers i then w.data[i - w.offset]? else c.view i := by
  have hpresent := present_store_iff c w.offset w.data i
  split_ifs with hcovers
  · rw [view_of_present (hpresent.mpr (.inr hcovers)), buf_store c _ _ (.inr hcovers)]
    exact if_pos hcovers
  · have hsame : (c.store w.offset w.data).present[i]? = some true ↔ c.present[i]? = some true :=
      hpresent.trans (or_iff_left hcovers)
    by_cases hold : c.present[i]? = some true
    · have hlt : i < c.buf.length := h.length_eq ▸ (List.getElem?_eq_some_iff.mp hold).1
      rw [view_of_present (hsame.mpr hold), view_of_present hold, buf_store c _ _ (.inl hlt)]
      exact if_neg hcovers
    · rw [view, view, if_neg (mt hsame.mp hold), if_neg hold]

namespace Represents

theorem new : Represents [] {} where
  wf := wf_new
  view_eq _ := rfl

/-- **One write.** A write within the capacity lays its data over what is there. -/
theorem store (h : Represents ws c) (hcap : w.offset + w.data.length ≤ quicCryptoReassemblyCap) :
    Represents (ws ++ [w]) (c.store w.offset w.data) where
  wf := h.wf.store hcap
  view_eq i := by rw [h.wf.view_store, overlay_concat, h.view_eq]

/-- **Any calls.** The state holds the overlay of those that return `Ok`. -/
theorem writes (h : Represents ws c) (calls : List (Write UInt8)) :
    Represents (ws ++ succeeded target c calls) (writes target c calls) := by
  induction calls generalizing ws c with
  | nil =>
    rw [succeeded, List.append_nil]
    exact h
  | cons w calls ih =>
    rw [succeeded, QuicCryptoReassembly.writes, List.foldl_cons]
    rcases le_or_gt (w.offset + w.data.length) quicCryptoReassemblyCap with hle | hlt
    · rw [write_of_le hle, List.append_cons]
      exact ih (h.store hle)
    · rw [write_of_lt hlt]
      exact ih h

/-- The positions that are there are those of the writes. -/
theorem present_iff (h : Represents ws c) {i : ℕ} :
    c.present[i]? = some true ↔ ∃ w ∈ ws, w.Covers i := by
  rw [← not_iff_not, ← ne_eq, ← h.wf.view_eq_none_iff, h.view_eq, overlay_eq_none_iff]
  simp only [not_exists, not_and]

/-- The byte at a position is that of the last write that covers it. -/
theorem exists_last (h : Represents ws c) {i : ℕ} (hi : c.present[i]? = some true) :
    ∃ before w after, ws = before ++ w :: after ∧ w.Covers i ∧
      c.buf[i]? = w.data[i - w.offset]? ∧ ∀ v ∈ after, ¬v.Covers i := by
  obtain ⟨b, hb⟩ := Option.ne_none_iff_exists'.mp
    (mt h.wf.view_eq_none_iff.mp (not_not.mpr hi))
  obtain ⟨before, w, after, hsplit, hcovers, hw, hafter⟩ :=
    overlay_eq_some_iff.mp ((h.view_eq i).symm.trans hb)
  exact ⟨before, w, after, hsplit, hcovers, by rw [← view_of_present hi, hb, hw], hafter⟩

/-- No byte of a gap is in the contiguous part. -/
theorem getElem?_contiguous (h : Represents ws c) {i : ℕ} (hi : i < c.contiguousLen) :
    c.contiguous[i]? = overlay ws i ∧ ∃ w ∈ ws, w.Covers i := by
  have hpresent := h.wf.contiguous i hi
  refine ⟨?_, h.present_iff.mp hpresent⟩
  rw [contiguous, List.getElem?_take_of_lt hi, ← h.view_eq, view_of_present hpresent]

end Represents

/-- A call that fails leaves the state as it is. -/
theorem write_eq_self {offset : ℕ} {data : Bytes} {e : UdpSniffError}
    (h : (c.write target offset data).1 = .error e) : (c.write target offset data).2 = c := by
  rcases le_or_gt (offset + data.length) quicCryptoReassemblyCap with hle | hlt
  · rw [write_of_le hle] at h
    cases h
  · rw [write_of_lt hlt]

/-- **Representation.** After any calls of `write` on the empty state, buffer and bits have one
length of at most 32 KiB, the contiguous length is that of the longest beginning without a gap, the
positions that are there are those that a call returning `Ok` covers, and the byte at each is that
of the last such call. A call that fails leaves every state as it is. -/
theorem writes_representation (target : Target) (calls : List (Write UInt8)) :
    let c := writes target {} calls
    (c.buf.length = c.present.length ∧ c.buf.length ≤ 32 * 1024) ∧
    IsGreatest {n | ∀ i < n, c.present[i]? = some true} c.contiguousLen ∧
    (∀ i, c.present[i]? = some true ↔ ∃ w ∈ succeeded target {} calls, w.Covers i) ∧
    (∀ i, c.present[i]? = some true → ∃ before w after,
      succeeded target {} calls = before ++ w :: after ∧ w.Covers i ∧
        c.buf[i]? = w.data[i - w.offset]? ∧ ∀ v ∈ after, ¬v.Covers i) ∧
    ∀ (c : QuicCryptoReassembly) (offset : ℕ) (data : Bytes) (e : UdpSniffError),
      (c.write target offset data).1 = .error e → (c.write target offset data).2 = c := by
  have h : Represents (succeeded target {} calls) (writes target {} calls) :=
    Represents.new.writes calls
  exact ⟨⟨h.wf.length_eq.symm, h.wf.le_cap⟩, h.wf.isGreatest_contiguousLen,
    fun _ => h.present_iff, fun _ => h.exists_last, fun _ _ _ _ => write_eq_self⟩

end QuicCryptoReassembly

end XtpRs.Sniff
