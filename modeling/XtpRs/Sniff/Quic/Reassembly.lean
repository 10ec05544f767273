import XtpRs.Lib.Buffer
import XtpRs.Sniff.Udp

/-!
# Reassembly of CRYPTO data

`QuicCryptoReassembly` of `src/sniff/quic.rs` collects the data of CRYPTO frames, which arrive in
any order and may overlap, in a buffer with a bit for each byte that is there. `contiguous` is the
part from the beginning on that has no gap.

## Main definitions

* `QuicCryptoReassembly.write`: the code.
* `QuicCryptoReassembly.Wf`: the invariant of the representation.
* `QuicCryptoReassembly.Holds`: the buffer holds the bytes of a message at a set of positions.

## Main results

* `QuicCryptoReassembly.Wf.write`: writing keeps the invariant.
* `QuicCryptoReassembly.Holds.write`: writing a piece of the message adds its positions.
* `QuicCryptoReassembly.Holds.contiguous_eq`, `QuicCryptoReassembly.Holds.contiguousLen_eq_iff`: the
  contiguous part is a beginning of the message, and all of it once every position is there.
-/

namespace XtpRs.Sniff

open Lib

/-- The width of `usize`. -/
inductive Target
  | bits32
  | bits64
  deriving DecidableEq, Repr

namespace Target

/-- The first number that is no `usize`. -/
def usizeEnd : Target → ℕ
  | bits32 => 2 ^ 32
  | bits64 => 2 ^ 64

theorem le_usizeEnd (target : Target) : 2 ^ 32 ≤ target.usizeEnd := by
  cases target <;> decide

/-- `usize::checked_add`, with the error `TooLarge`. -/
def checkedAdd (target : Target) (a b : ℕ) : Except UdpSniffError ℕ :=
  if a + b < target.usizeEnd then .ok (a + b) else .error .tooLarge

/-- `usize::try_from` of a `u64`, with the error `TooLarge`. -/
def usizeTryFrom (target : Target) (v : ℕ) : Except UdpSniffError ℕ :=
  if v < target.usizeEnd then .ok v else .error .tooLarge

/-- A `u64` cast by `as usize`. -/
def asUsize (target : Target) (v : ℕ) : ℕ := v % target.usizeEnd

variable {target : Target} {a b : ℕ}

theorem checkedAdd_of_lt (h : a + b < 2 ^ 32) : target.checkedAdd a b = .ok (a + b) :=
  if_pos (h.trans_le target.le_usizeEnd)

theorem usizeTryFrom_of_lt (h : a < 2 ^ 32) : target.usizeTryFrom a = .ok a :=
  if_pos (h.trans_le target.le_usizeEnd)

theorem asUsize_of_lt (h : a < 2 ^ 32) : target.asUsize a = a :=
  Nat.mod_eq_of_lt (h.trans_le target.le_usizeEnd)

end Target

/-- `QUIC_CRYPTO_REASSEMBLY_CAP`. -/
def quicCryptoReassemblyCap : ℕ := 32 * 1024

/-- `QuicCryptoReassembly`. -/
structure QuicCryptoReassembly where
  buf : Bytes := []
  present : List Bool := []
  contiguousLen : ℕ := 0
  lastDcid : Option Bytes := none
  deriving DecidableEq, Repr

/-- The loop at the end of `write`, given the bits from the contiguous length on. -/
def advanceContiguous : List Bool → ℕ → ℕ
  | true :: rest, n => advanceContiguous rest (n + 1)
  | _, n => n

namespace QuicCryptoReassembly

/-- The data is copied into the buffer, which grows if necessary, and its positions are marked. -/
def store (c : QuicCryptoReassembly) (offset : ℕ) (data : Bytes) : QuicCryptoReassembly :=
  let stop := offset + data.length
  let buf := overwrite (resize c.buf stop 0) offset data
  let present := overwrite (resize c.present stop false) offset (List.replicate data.length true)
  { c with
    buf
    present
    contiguousLen := advanceContiguous (present.drop c.contiguousLen) c.contiguousLen }

/-- `QuicCryptoReassembly::write`, with the state it leaves. -/
def write (target : Target) (c : QuicCryptoReassembly) (offset : ℕ) (data : Bytes) :
    Except UdpSniffError Unit × QuicCryptoReassembly :=
  match target.checkedAdd offset data.length with
  | .error e => (.error e, c)
  | .ok stop =>
    if quicCryptoReassemblyCap < stop then (.error .tooLarge, c)
    else (.ok (), c.store offset data)

/-- `QuicCryptoReassembly::reset`. -/
def reset (_c : QuicCryptoReassembly) : QuicCryptoReassembly := {}

/-- `QuicCryptoReassembly::contiguous`. -/
def contiguous (c : QuicCryptoReassembly) : Bytes := c.buf.take c.contiguousLen

/-! ### The invariant -/

/-- Buffer and bits have one length within the capacity, and the contiguous length is that of the
longest beginning without a gap. -/
structure Wf (c : QuicCryptoReassembly) : Prop where
  length_eq : c.present.length = c.buf.length
  le_cap : c.buf.length ≤ quicCryptoReassemblyCap
  contiguous_le : c.contiguousLen ≤ c.present.length
  contiguous : ∀ i < c.contiguousLen, c.present[i]? = some true
  gap : c.present[c.contiguousLen]? ≠ some true

theorem wf_new : Wf {} where
  length_eq := rfl
  le_cap := Nat.zero_le _
  contiguous_le := le_rfl
  contiguous i hi := absurd hi (Nat.not_lt_zero i)
  gap := by simp

/-- The loop stops at the first gap. -/
theorem advanceContiguous_spec (l : List Bool) (n : ℕ) :
    n ≤ advanceContiguous l n ∧ advanceContiguous l n ≤ n + l.length ∧
      (∀ i, n + i < advanceContiguous l n → l[i]? = some true) ∧
      l[advanceContiguous l n - n]? ≠ some true := by
  induction l generalizing n with
  | nil => simp [advanceContiguous]
  | cons b rest ih =>
    cases b with
    | false => simp [advanceContiguous]
    | true =>
      obtain ⟨hle, hlength, hbelow, hgap⟩ := ih (n + 1)
      rw [advanceContiguous]
      refine ⟨by omega, by rw [List.length_cons]; omega, fun i hi => ?_, ?_⟩
      · cases i with
        | zero => rfl
        | succ i =>
          rw [List.getElem?_cons_succ]
          exact hbelow i (by omega)
      · have hsucc : advanceContiguous rest (n + 1) - n =
            advanceContiguous rest (n + 1) - (n + 1) + 1 := by omega
        rw [hsucc, List.getElem?_cons_succ]
        exact hgap

variable {target : Target} {c c' : QuicCryptoReassembly} {offset : ℕ} {data : Bytes}

theorem write_of_le (h : offset + data.length ≤ quicCryptoReassemblyCap) :
    c.write target offset data = (.ok (), c.store offset data) := by
  have hcap : quicCryptoReassemblyCap < 2 ^ 32 := by decide
  rw [write, Target.checkedAdd_of_lt (by omega)]
  exact if_neg (by omega)

/-- Data beyond the capacity is rejected. -/
theorem write_of_lt (h : quicCryptoReassemblyCap < offset + data.length) :
    c.write target offset data = (.error .tooLarge, c) := by
  unfold QuicCryptoReassembly.write Target.checkedAdd
  split_ifs with hsum
  · dsimp only
    rw [if_pos h]
  · rfl

theorem length_present_store (c : QuicCryptoReassembly) (offset : ℕ) (data : Bytes) :
    (c.store offset data).present.length = max c.present.length (offset + data.length) := by
  rw [store, length_overwrite, length_resize]
  rw [length_resize, List.length_replicate]
  omega

theorem length_buf_store (c : QuicCryptoReassembly) (offset : ℕ) (data : Bytes) :
    (c.store offset data).buf.length = max c.buf.length (offset + data.length) := by
  rw [store, length_overwrite, length_resize]
  rw [length_resize]
  omega

/-- The positions that are there afterwards. -/
theorem present_store_iff (c : QuicCryptoReassembly) (offset : ℕ) (data : Bytes) (i : ℕ) :
    (c.store offset data).present[i]? = some true ↔
      c.present[i]? = some true ∨ offset ≤ i ∧ i < offset + data.length := by
  have hlength : (List.replicate data.length true).length = data.length :=
    List.length_replicate
  rw [store, getElem?_overwrite (by rw [length_resize, hlength]; omega), hlength]
  by_cases hi : offset ≤ i ∧ i < offset + data.length
  · rw [if_pos hi, List.getElem?_replicate, if_pos (by omega)]
    simp [hi]
  · rw [if_neg hi, getElem?_resize]
    split_ifs with hold hstop
    · simp [hi]
    · simp [hi, List.getElem?_eq_none (not_lt.mp hold)]
    · simp [hi, List.getElem?_eq_none (not_lt.mp hold)]

/-- The bytes afterwards: those of the data at its positions, the old ones where there were any. -/
theorem buf_store (c : QuicCryptoReassembly) (offset : ℕ) (data : Bytes) {i : ℕ}
    (hi : i < c.buf.length ∨ offset ≤ i ∧ i < offset + data.length) :
    (c.store offset data).buf[i]? =
      if offset ≤ i ∧ i < offset + data.length then data[i - offset]? else c.buf[i]? := by
  rw [store, getElem?_overwrite (by rw [length_resize]; omega)]
  split_ifs with hdata
  · rfl
  · rw [getElem?_resize, if_pos (hi.resolve_right hdata)]

/-- **Representation.** Storing data within the capacity keeps the invariant. -/
theorem Wf.store (h : Wf c) (hcap : offset + data.length ≤ quicCryptoReassemblyCap) :
    Wf (c.store offset data) := by
  obtain ⟨hle, hlength, hbelow, hgap⟩ := advanceContiguous_spec
    ((c.store offset data).present.drop c.contiguousLen) c.contiguousLen
  have hlen : (c.store offset data).contiguousLen = advanceContiguous
    ((c.store offset data).present.drop c.contiguousLen) c.contiguousLen := rfl
  have hgrow := length_present_store c offset data
  have hcontiguous := h.contiguous_le
  rw [← hlen] at hle hlength hbelow hgap
  rw [List.length_drop] at hlength
  refine ⟨?_, ?_, by omega, fun i hi => ?_, ?_⟩
  · rw [hgrow, length_buf_store, h.length_eq]
  · rw [length_buf_store]
    exact max_le h.le_cap hcap
  · rcases lt_or_ge i c.contiguousLen with hlt | hge
    · exact (present_store_iff c offset data i).mpr (.inl (h.contiguous i hlt))
    · have hi' := hbelow (i - c.contiguousLen) (by omega)
      rwa [List.getElem?_drop, Nat.add_sub_cancel' hge] at hi'
  · rwa [List.getElem?_drop, Nat.add_sub_cancel' hle] at hgap

/-- Every `write` keeps the invariant. -/
theorem Wf.write (h : Wf c) : Wf (c.write target offset data).2 := by
  by_cases hcap : offset + data.length ≤ quicCryptoReassemblyCap
  · rw [write_of_le hcap]
    exact h.store hcap
  · rw [write_of_lt (not_le.mp hcap)]
    exact h

/-! ### Pieces of a message -/

/-- The data is the part of the message at the offset. -/
structure IsPiece (message : Bytes) (offset : ℕ) (data : Bytes) : Prop where
  le : offset + data.length ≤ message.length
  eq : ∀ i < data.length, data[i]? = message[offset + i]?

/-- The buffer holds the bytes of the message at the positions of a set, and nothing else. -/
structure Holds (message : Bytes) (seen : Set ℕ) (c : QuicCryptoReassembly) : Prop where
  wf : Wf c
  length_le : c.buf.length ≤ message.length
  present_iff : ∀ i, c.present[i]? = some true ↔ i ∈ seen
  buf_eq : ∀ i ∈ seen, c.buf[i]? = message[i]?

/-- Every position of the message is in the set. -/
def Covers (message : Bytes) (seen : Set ℕ) : Prop :=
  ∀ i < message.length, i ∈ seen

/-- The positions of a piece. -/
def positions (offset : ℕ) (data : Bytes) : Set ℕ :=
  Set.Ico offset (offset + data.length)

namespace Holds

variable {message : Bytes} {seen : Set ℕ}

theorem new (message : Bytes) : Holds message ∅ {} where
  wf := wf_new
  length_le := Nat.zero_le _
  present_iff i := by simp
  buf_eq i hi := absurd hi (Set.notMem_empty i)

theorem lt_length (h : Holds message seen c) {i : ℕ} (hi : i ∈ seen) : i < c.buf.length := by
  have hpresent := (h.present_iff i).mpr hi
  rw [← h.wf.length_eq]
  exact (List.getElem?_eq_some_iff.mp hpresent).1

/-- **Pieces.** Writing a piece of a message within the capacity adds its positions. -/
theorem store (h : Holds message seen c) (hpiece : IsPiece message offset data)
    (hcap : message.length ≤ quicCryptoReassemblyCap) :
    Holds message (seen ∪ positions offset data) (c.store offset data) := by
  have hle := hpiece.le
  refine ⟨h.wf.store (hle.trans hcap), ?_, fun i => ?_, fun i hi => ?_⟩
  · rw [length_buf_store]
    exact max_le h.length_le hle
  · rw [present_store_iff, h.present_iff]
    rfl
  · by_cases hdata : offset ≤ i ∧ i < offset + data.length
    · rw [buf_store c offset data (.inr hdata), if_pos hdata, hpiece.eq _ (by omega),
        Nat.add_sub_cancel' hdata.1]
    · have hseen : i ∈ seen := hi.resolve_right hdata
      rw [buf_store c offset data (.inl (h.lt_length hseen)), if_neg hdata]
      exact h.buf_eq i hseen

/-- The contiguous part is a beginning of the message. -/
theorem contiguous_eq (h : Holds message seen c) :
    c.contiguous = message.take c.contiguousLen := by
  refine List.ext_getElem? fun i => ?_
  rw [contiguous, List.getElem?_take, List.getElem?_take]
  split_ifs with hi
  · exact h.buf_eq i ((h.present_iff i).mp (h.wf.contiguous i hi))
  · rfl

theorem contiguousLen_le (h : Holds message seen c) : c.contiguousLen ≤ message.length :=
  (h.wf.contiguous_le.trans h.wf.length_eq.le).trans h.length_le

/-- The contiguous part is the whole message exactly when every position is there. -/
theorem contiguousLen_eq_iff (h : Holds message seen c) :
    c.contiguousLen = message.length ↔ Covers message seen := by
  constructor
  · intro heq i hi
    exact (h.present_iff i).mp (h.wf.contiguous i (by omega))
  · intro hcovers
    by_contra hne
    have hlt : c.contiguousLen < message.length :=
      lt_of_le_of_ne h.contiguousLen_le hne
    exact h.wf.gap ((h.present_iff _).mpr (hcovers _ hlt))

end Holds

end QuicCryptoReassembly

end XtpRs.Sniff
