import XtpRs.Udp.Effect

/-!
# Session creation is single-flight

A call that finds no entry for its key inserts `Creating` and owns that entry until it publishes
or removes it. `OwnerInv` states what every interleaving keeps about owners, entries and waiting
calls, whatever is aborted; `CreationInv` states to whom the spawned creations belong, and needs
that no call is aborted while it owns a creation (`Harmless`).

## Main definitions

* `Harmless`, `NoAbort`: conditions on a step.
* `UdpRuntime.OwnerInv`, `UdpRuntime.CreationInv`.
* `ShutdownCall.PastDrain`: the call of `shutdown` has held the map lock.

## Main results

* `UdpRuntime.OwnerInv.step`, `UdpRuntime.CreationInv.step`: one step keeps the invariants.
* `UdpRuntime.single_flight`: in every run without aborts there is one creation per key, every
  waiting call has its entry or the notification is under way, and a shutdown is final.
-/

namespace XtpRs.Udp

open Lib

/-- The call of `shutdown` has held the map lock. -/
def ShutdownCall.PastDrain (call : ShutdownCall) : Prop :=
  (∃ ok rest, call = .reaping ok rest) ∨ ∃ ok, call = .returned ok

namespace UdpRuntime

variable {rt rt' : UdpRuntime} {i j : ℕ} {n m : NotifyId} {pc : CallPc}

/-! ### Owners of `Creating` entries -/

/-- Owners, entries and waiting calls. A call owns the `Creating` entry it has inserted
(`CallPc.owned?`) until a `shutdown` has cleared the map. -/
structure OwnerInv (rt : UdpRuntime) : Prop where
  fresh_call : ∀ i, rt.numCalls ≤ i → (rt.calls i).pc = .idle
  owned_lt : ∀ i n, (rt.calls i).pc.owned? = some n → n < rt.numNotifies
  creating_lt : ∀ k n, rt.entry k = some (.creating n) → n < rt.numNotifies
  owned_entry : rt.drained = false → ∀ i n, (rt.calls i).pc.owned? = some n →
    rt.entry (rt.calls i).spec.key = some (.creating n)
  drained_entry : rt.drained = true → ∀ k, rt.entry k = none
  drained_closed : rt.drained = true → rt.closed = true
  owner_unique : ∀ i j n m, (rt.calls i).pc.owned? = some n → (rt.calls j).pc.owned? = some m →
    (rt.calls i).spec.key = (rt.calls j).spec.key → i = j
  waiting_entry : ∀ i n, (rt.calls i).pc = .waiting n false →
    rt.entry (rt.calls i).spec.key = some (.creating n) ∨ ∃ j, (rt.calls j).pc = .notifying n
  locking_closed : ∀ d, rt.shutdowns d = .locking → rt.closed = true
  pastDrain_drained : ∀ d, (rt.shutdowns d).PastDrain → rt.drained = true

namespace OwnerInv

/-- An owner's key has the owner's entry, or no entry at all. -/
theorem entry_ne_ready (h : OwnerInv rt) (hi : (rt.calls i).pc.owned? = some n) (s : SessionId) :
    rt.entry (rt.calls i).spec.key ≠ some (.ready s) := by
  cases hd : rt.drained with
  | false => simp [h.owned_entry hd i n hi]
  | true => simp [h.drained_entry hd]

/-- A waiter of an owner's key waits for that owner, or its notification is under way. -/
theorem waiting_of_owned (h : OwnerInv rt) (hi : (rt.calls i).pc.owned? = some n)
    (hj : (rt.calls j).pc = .waiting m false)
    (hkey : (rt.calls j).spec.key = (rt.calls i).spec.key) :
    m = n ∨ ∃ w, (rt.calls w).pc = .notifying m := by
  rcases h.waiting_entry j m hj with hk | hw
  · left
    cases hd : rt.drained with
    | false =>
      rw [hkey, h.owned_entry hd i n hi] at hk
      exact (UdpSessionEntry.creating.inj (Option.some.inj hk)).symm
    | true => simp [h.drained_entry hd] at hk
  · exact .inr hw

/-- Entries come and go without a `Creating` one among them. -/
theorem withSessions (h : OwnerInv rt) {sessions : HashMap UdpSessionKey UdpSessionEntry}
    {heap : SessionId → UdpSession}
    (hcreating : ∀ k n, sessions.lookup k = some (.creating n) ↔ rt.entry k = some (.creating n))
    (hnone : ∀ k, rt.entry k = none → sessions.lookup k = none) :
    OwnerInv { rt with sessions, heap } :=
  { h with
    creating_lt := fun k n hk => h.creating_lt k n ((hcreating k n).mp hk)
    owned_entry := fun hd i n hi => (hcreating _ n).mpr (h.owned_entry hd i n hi)
    drained_entry := fun hd k => hnone k (h.drained_entry hd k)
    waiting_entry := fun i n hi => (h.waiting_entry i n hi).imp_left (hcreating _ n).mpr }

/-- A call moves on and owns no entry that it did not own, other calls are at most woken, and the
map keeps the entries of all owners. The waiting calls remain to be looked at. -/
theorem move (h : OwnerInv rt) {sessions : HashMap UdpSessionKey UdpSessionEntry}
    {calls : ℕ → Call} (hi : (rt.calls i).pc ≠ .idle)
    (hw : ∀ j, WokenFrom (rt.calls j) (calls j))
    (howned : ∀ n, pc.owned? = some n → (rt.calls i).pc.owned? = some n)
    (hcreating : ∀ k n, sessions.lookup k = some (.creating n) → rt.entry k = some (.creating n))
    (hkeep : ∀ j n, (({ rt with sessions, calls }.setPc i pc).calls j).pc.owned? = some n →
      sessions.lookup (rt.calls j).spec.key = rt.entry (rt.calls j).spec.key)
    (hnone : rt.drained = true → ∀ k, sessions.lookup k = none)
    (hwaiting : ∀ j n, (({ rt with sessions, calls }.setPc i pc).calls j).pc = .waiting n false →
      sessions.lookup (rt.calls j).spec.key = some (.creating n) ∨
        ∃ w, (({ rt with sessions, calls }.setPc i pc).calls w).pc = .notifying n) :
    OwnerInv ({ rt with sessions, calls }.setPc i pc) := by
  have hspec : ∀ j,
      (({ rt with sessions, calls }.setPc i pc).calls j).spec = (rt.calls j).spec := by
    intro j
    rw [spec_setPc]
    exact (hw j).spec_eq
  have hold : ∀ j n, (({ rt with sessions, calls }.setPc i pc).calls j).pc.owned? = some n →
      (rt.calls j).pc.owned? = some n := by
    intro j n hj
    rw [pc_setPc] at hj
    split_ifs at hj with hji
    · exact hji ▸ howned n hj
    · exact (hw j).owned?_eq ▸ hj
  refine ⟨fun j hj => ?_, fun j n hj => h.owned_lt j n (hold j n hj),
    fun k n hk => h.creating_lt k n (hcreating k n hk), fun hd j n hj => ?_, hnone,
    h.drained_closed, fun j j' n m hj hj' hkey => ?_, fun j n hj => ?_, h.locking_closed,
    h.pastDrain_drained⟩
  · have hidle := h.fresh_call j hj
    have hji : j ≠ i := by
      rintro rfl
      exact hi hidle
    rw [pc_setPc, if_neg hji]
    exact ((hw j).pc_eq_iff (by simp)).mpr hidle
  · rw [hspec]
    exact (hkeep j n hj).trans (h.owned_entry hd j n (hold j n hj))
  · rw [hspec, hspec] at hkey
    exact h.owner_unique j j' n m (hold j n hj) (hold j' m hj') hkey
  · rw [hspec]
    exact hwaiting j n hj

/-- A call moves on without giving up or taking an entry. -/
theorem setPc (h : OwnerInv rt) (hi : (rt.calls i).pc ≠ .idle)
    (howned : ∀ n, pc.owned? = some n → (rt.calls i).pc.owned? = some n)
    (hwait : ∀ n, pc = .waiting n false → rt.entry (rt.calls i).spec.key = some (.creating n))
    (hnotify : ∀ n, (rt.calls i).pc ≠ .notifying n) : OwnerInv (rt.setPc i pc) := by
  refine h.move hi (fun _ => .inl rfl) howned (fun _ _ hk => hk) (fun _ _ _ => rfl)
    h.drained_entry fun j n hj => ?_
  rw [pc_setPc] at hj
  split_ifs at hj with hji
  · subst hji
    exact .inl (hwait n hj)
  · exact (h.waiting_entry j n hj).imp_right fun hw => exists_notifying_setPc hw (hnotify n)

theorem not_drained_of_open (h : OwnerInv rt) (hclosed : rt.closed = false) :
    rt.drained = false := by
  by_contra hd
  rw [Bool.not_eq_false] at hd
  exact absurd (h.drained_closed hd) (by simp [hclosed])

/-- Before the map is cleared, a key without an entry has no owner. -/
theorem key_ne_of_entry_none (h : OwnerInv rt) (hd : rt.drained = false) {k : UdpSessionKey}
    (hk : rt.entry k = none) (hj : (rt.calls j).pc.owned? = some n) :
    (rt.calls j).spec.key ≠ k := by
  rintro rfl
  rw [h.owned_entry hd j n hj] at hk
  cases hk

/-- A call inserts a `Creating` entry with a new `Notify`. -/
theorem reserve (h : OwnerInv rt) {c : ℕ} (hi : (rt.calls i).pc = .lockMap)
    (hclosed : rt.closed = false) (hk : rt.entry (rt.calls i).spec.key = none) :
    OwnerInv { (rt.insertEntry (rt.calls i).spec.key (.creating rt.numNotifies)).setPc i
      (.joining rt.numNotifies c) with numNotifies := rt.numNotifies + 1 } := by
  have hnotDrained := h.not_drained_of_open hclosed
  have hold : ∀ j n, (((rt.insertEntry (rt.calls i).spec.key (.creating rt.numNotifies)).setPc i
      (.joining rt.numNotifies c)).calls j).pc.owned? = some n →
      (j = i ∧ n = rt.numNotifies) ∨ (rt.calls j).pc.owned? = some n := by
    intro j n hj
    rw [pc_setPc] at hj
    split_ifs at hj with hji
    · exact .inl ⟨hji, (Option.some.inj hj).symm⟩
    · exact .inr hj
  have hnoOwner : ∀ j n, (rt.calls j).pc.owned? = some n →
      (rt.calls j).spec.key ≠ (rt.calls i).spec.key :=
    fun j n => h.key_ne_of_entry_none hnotDrained hk
  have hspec : ∀ j, (((rt.insertEntry (rt.calls i).spec.key (.creating rt.numNotifies)).setPc i
      (.joining rt.numNotifies c)).calls j).spec = (rt.calls j).spec := fun j => spec_setPc ..
  have hinsert : ∀ k, k ≠ (rt.calls i).spec.key →
      (rt.sessions.insert (rt.calls i).spec.key (.creating rt.numNotifies)).lookup k =
        rt.entry k := by
    intro k hne
    rw [HashMap.lookup_insert_eq_ite, if_neg hne, entry]
  refine ⟨fun j hj => ?_, fun j n hj => ?_, fun k n hkn => ?_, fun _ j n hj => ?_,
    fun hd => absurd (hnotDrained.symm.trans hd) (by simp), h.drained_closed,
    fun j j' n m hj hj' hkey => ?_, fun j n hj => ?_, h.locking_closed, h.pastDrain_drained⟩
  · have hidle := h.fresh_call j hj
    have hji : j ≠ i := by
      rintro rfl
      rw [hi] at hidle
      cases hidle
    exact (pc_setPc ..).trans ((if_neg hji).trans hidle)
  · rcases hold j n hj with ⟨-, rfl⟩ | hj
    · exact Nat.lt_succ_self _
    · exact Nat.lt_succ_of_lt (h.owned_lt j n hj)
  · change (rt.sessions.insert (rt.calls i).spec.key _).lookup k = _ at hkn
    rcases eq_or_ne k (rt.calls i).spec.key with rfl | hne
    · rw [HashMap.lookup_insert_eq_ite, if_pos rfl] at hkn
      rw [← UdpSessionEntry.creating.inj (Option.some.inj hkn)]
      exact Nat.lt_succ_self _
    · rw [hinsert k hne] at hkn
      exact Nat.lt_succ_of_lt (h.creating_lt k n hkn)
  · change (rt.sessions.insert (rt.calls i).spec.key _).lookup (Call.spec _).key = _
    rw [hspec]
    rcases hold j n hj with ⟨rfl, rfl⟩ | hj
    · rw [HashMap.lookup_insert_eq_ite, if_pos rfl]
    · rw [hinsert _ (hnoOwner j n hj)]
      exact h.owned_entry hnotDrained j n hj
  · replace hkey : (rt.calls j).spec.key = (rt.calls j').spec.key := by
      rw [← hspec j, ← hspec j']
      exact hkey
    rcases hold j n hj with ⟨rfl, -⟩ | hown
    · rcases hold j' m hj' with ⟨rfl, -⟩ | hown'
      · rfl
      · exact absurd hkey.symm (hnoOwner j' m hown')
    · rcases hold j' m hj' with ⟨rfl, -⟩ | hown'
      · exact absurd hkey (hnoOwner j n hown)
      · exact h.owner_unique j j' n m hown hown' hkey
  · change ((UdpRuntime.setPc _ i _).calls j).pc = _ at hj
    rw [pc_setPc] at hj
    split_ifs at hj with hji
    have hj' : (rt.calls j).pc = .waiting n false := hj
    rcases h.waiting_entry j n hj' with hjk | hw
    · left
      change (rt.sessions.insert _ _).lookup ((UdpRuntime.setPc _ i _).calls j).spec.key = _
      rw [hspec, hinsert]
      · exact hjk
      · intro hkey
        rw [hkey, hk] at hjk
        cases hjk
    · right
      have hi' : ((rt.insertEntry (rt.calls i).spec.key (.creating rt.numNotifies)).calls i).pc ≠
          .notifying n := by simp [insertEntry, hi]
      exact exists_notifying_setPc hw hi'

/-- No other call owns the entry of an owner's key. -/
theorem key_ne_of_owned (h : OwnerInv rt) (hi : (rt.calls i).pc.owned? = some n)
    (hj : (rt.calls j).pc.owned? = some m) (hji : j ≠ i) :
    (rt.calls j).spec.key ≠ (rt.calls i).spec.key :=
  fun hkey => hji (h.owner_unique j i m n hj hi hkey)

/-- A call gives up its entry: the map changes at its key only, to no entry or to a `Ready` one. -/
theorem giveUp (h : OwnerInv rt) {sessions : HashMap UdpSessionKey UdpSessionEntry}
    {calls : ℕ → Call} (hi : (rt.calls i).pc.owned? = some n)
    (hw : ∀ j, WokenFrom (rt.calls j) (calls j))
    (hne : ∀ k, k ≠ (rt.calls i).spec.key → sessions.lookup k = rt.entry k)
    (hkey : ∀ m, sessions.lookup (rt.calls i).spec.key ≠ some (.creating m))
    (hdrained : rt.drained = true → sessions.lookup (rt.calls i).spec.key = none)
    (hpc : pc.owned? = none)
    (hwaiting : ∀ j n, (({ rt with sessions, calls }.setPc i pc).calls j).pc = .waiting n false →
      sessions.lookup (rt.calls j).spec.key = some (.creating n) ∨
        ∃ w, (({ rt with sessions, calls }.setPc i pc).calls w).pc = .notifying n) :
    OwnerInv ({ rt with sessions, calls }.setPc i pc) := by
  have hidle : (rt.calls i).pc ≠ .idle := by
    intro hidle
    rw [hidle] at hi
    cases hi
  refine h.move hidle hw (fun m hm => ?_) (fun k m hk => ?_) (fun j m hj => ?_) (fun hd k => ?_)
    hwaiting
  · rw [hpc] at hm
    cases hm
  · rcases eq_or_ne k (rt.calls i).spec.key with rfl | hk'
    · exact absurd hk (hkey m)
    · exact hne k hk' ▸ hk
  · rw [pc_setPc] at hj
    split_ifs at hj with hji
    · rw [hpc] at hj
      cases hj
    · exact hne _ (h.key_ne_of_owned hi ((hw j).owned?_eq ▸ hj) hji)
  · rcases eq_or_ne k (rt.calls i).spec.key with rfl | hk'
    · exact hdrained hd
    · rw [hne k hk', h.drained_entry hd]

/-- A call gives up its entry and notifies the waiters under the same lock. -/
theorem release (h : OwnerInv rt) {sessions : HashMap UdpSessionKey UdpSessionEntry}
    (hi : (rt.calls i).pc.owned? = some n)
    (hne : ∀ k, k ≠ (rt.calls i).spec.key → sessions.lookup k = rt.entry k)
    (hkey : ∀ m, sessions.lookup (rt.calls i).spec.key ≠ some (.creating m))
    (hdrained : rt.drained = true → sessions.lookup (rt.calls i).spec.key = none)
    (hpc : pc.owned? = none) (hwait : ∀ m, pc ≠ .waiting m false) :
    OwnerInv (({ rt with sessions }.notifyWaiters n).setPc i pc) := by
  refine h.giveUp hi (fun j => wokenFrom_wake n _) hne hkey hdrained hpc fun j m hj => ?_
  rw [pc_setPc] at hj
  split_ifs at hj with hji
  · exact absurd hj (hwait m)
  obtain ⟨hj', hmn⟩ := Call.waiting_of_wake hj
  have hnot : ∀ hw : ∃ w, (rt.calls w).pc = .notifying m,
      ∃ w, ((({ rt with sessions }.notifyWaiters n).setPc i pc).calls w).pc = .notifying m := by
    intro hw
    refine exists_notifying_setPc (exists_notifying_notifyWaiters hw) ?_
    intro hi'
    have hi'' := (Call.pc_wake_eq_iff (by simp)).mp hi'
    simp [show (rt.calls i).pc = .notifying m from hi'', CallPc.owned?] at hi
  by_cases hk : (rt.calls j).spec.key = (rt.calls i).spec.key
  · exact .inr (hnot ((h.waiting_of_owned hi hj' hk).resolve_left hmn))
  · refine (h.waiting_entry j m hj').imp (fun hjk => ?_) hnot
    rw [hne _ hk, hjk]

/-- A call gives up its entry and leaves none. -/
theorem releaseNone (h : OwnerInv rt) (hi : (rt.calls i).pc.owned? = some n)
    (hpc : pc.owned? = none) (hwait : ∀ m, pc ≠ .waiting m false) :
    OwnerInv (((rt.removeEntry (rt.calls i).spec.key).notifyWaiters n).setPc i pc) := by
  refine h.release hi (fun k hk => ?_) (by simp) (by simp) hpc hwait
  rw [HashMap.lookup_erase_eq_ite, if_neg hk]

/-- The path of a failed join: the entry is removed, the notification follows. -/
theorem remove (h : OwnerInv rt) (hi : (rt.calls i).pc = .removing n) :
    OwnerInv ((rt.removeEntry (rt.calls i).spec.key).setPc i (.notifying n)) := by
  have hown : (rt.calls i).pc.owned? = some n := by rw [hi]; rfl
  have herase : ∀ k, k ≠ (rt.calls i).spec.key →
      (rt.sessions.erase (rt.calls i).spec.key).lookup k = rt.entry k := by
    intro k hk
    rw [HashMap.lookup_erase_eq_ite, if_neg hk, entry]
  have herased : (rt.sessions.erase (rt.calls i).spec.key).lookup (rt.calls i).spec.key = none := by
    rw [HashMap.lookup_erase_eq_ite, if_pos rfl]
  refine h.giveUp hown (fun j => .inl rfl) herase (by simp [herased]) (fun _ => herased) rfl
    fun j m hj => ?_
  rw [pc_setPc] at hj
  split_ifs at hj with hji
  have hj' : (rt.calls j).pc = .waiting m false := hj
  have hnot : ∀ hw : ∃ w, (rt.calls w).pc = .notifying m,
      ∃ w, (((rt.removeEntry (rt.calls i).spec.key).setPc i (.notifying n)).calls w).pc =
        .notifying m := by
    intro hw
    have hi' : ((rt.removeEntry (rt.calls i).spec.key).calls i).pc ≠ .notifying m := by
      simp [removeEntry, hi]
    exact exists_notifying_setPc hw hi'
  by_cases hk : (rt.calls j).spec.key = (rt.calls i).spec.key
  · right
    rcases h.waiting_of_owned hown hj' hk with rfl | hw
    · exact ⟨i, by rw [pc_setPc, if_pos rfl]⟩
    · exact hnot hw
  · refine (h.waiting_entry j m hj').imp (fun hjk => ?_) hnot
    rw [herase _ hk, hjk]

/-- The path of a failed join: the notification. -/
theorem notify (h : OwnerInv rt) (hi : (rt.calls i).pc = .notifying n) (hpc : pc.owned? = none)
    (hwait : ∀ m, pc ≠ .waiting m false) : OwnerInv ((rt.notifyWaiters n).setPc i pc) := by
  refine h.move (by simp [hi]) (fun j => wokenFrom_wake n _) (fun m hm => ?_) (fun _ _ hk => hk)
    (fun _ _ _ => rfl) h.drained_entry fun j m hj => ?_
  · rw [hpc] at hm
    cases hm
  · rw [pc_setPc] at hj
    split_ifs at hj with hji
    · exact absurd hj (hwait m)
    obtain ⟨hj', hmn⟩ := Call.waiting_of_wake hj
    refine (h.waiting_entry j m hj').imp_right fun hw => ?_
    refine exists_notifying_setPc (exists_notifying_notifyWaiters hw) ?_
    intro hi'
    have hi'' := (Call.pc_wake_eq_iff (by simp)).mp hi'
    rw [hi] at hi''
    exact hmn (CallPc.notifying.inj hi'').symm

/-- A `Ready` entry is removed. -/
theorem removeReady (h : OwnerInv rt) {k : UdpSessionKey} {s : SessionId}
    (hk : rt.entry k = some (.ready s)) : OwnerInv (rt.removeEntry k) := by
  refine h.withSessions (fun k' n => ?_) fun k' hk' => ?_
  · rw [HashMap.lookup_erase_eq_ite]
    split_ifs with hkk
    · simp [hkk, hk]
    · rfl
  · rw [HashMap.lookup_erase_eq_ite]
    split_ifs
    · rfl
    · exact hk'

end OwnerInv

theorem OwnerInv.drain (h : OwnerInv rt) {d : ℕ} (hd : rt.shutdowns d = .locking) :
    OwnerInv (rt.drain d) := by
  have hclosed := h.locking_closed d hd
  obtain ⟨calls, heq, hwoken, hnone⟩ := rt.drain_eq d
  rw [heq]
  refine ⟨fun j hj => ?_, fun j n hj => ?_, fun k n hk => ?_, by simp, fun _ k => ?_,
    fun _ => hclosed, fun j j' n m hj hj' hkey => ?_, fun j n hj => .inr ?_,
    fun _ _ => hclosed, fun _ _ => rfl⟩
  · exact ((hwoken j).pc_eq_iff (by simp)).mpr (h.fresh_call j hj)
  · exact h.owned_lt j n ((hwoken j).owned?_eq ▸ hj)
  · simp [entry] at hk
  · simp [entry]
  · refine h.owner_unique j j' n m ((hwoken j).owned?_eq ▸ hj) ((hwoken j').owned?_eq ▸ hj') ?_
    rw [← (hwoken j).spec_eq, ← (hwoken j').spec_eq]
    exact hkey
  · rcases h.waiting_entry j n ((hwoken j).waiting hj) with hk | ⟨w, hw⟩
    · exact absurd hj (hnone _ n hk j)
    · exact ⟨w, ((hwoken w).pc_eq_iff (by simp)).mpr hw⟩

/-! ### One step -/

/-- The expired entries are `Ready` ones. -/
theorem OwnerInv.removedFrom (h : OwnerInv rt) {now : ℕ} {l : List (UdpSessionKey × SessionId)}
    {removed : List SessionId} (hr : RemovedFrom rt now l rt' removed) : OwnerInv rt' := by
  have hcreating : ∀ k n, rt'.entry k = some (.creating n) ↔ rt.entry k = some (.creating n) := by
    intro k n
    rcases hr.entry k with hk | ⟨hk, s, hs, -⟩
    · rw [hk]
    · simp [hk, hs]
  have hnone : ∀ k, rt.entry k = none → rt'.entry k = none := by
    intro k hk
    rcases hr.entry k with hk' | ⟨hk', -⟩
    · rw [hk', hk]
    · exact hk'
  rw [hr.eq]
  exact h.withSessions hcreating hnone

/-- A call of `shutdown` that has held the map lock moves on. -/
theorem OwnerInv.setShutdown (h : OwnerInv rt) {d : ℕ} {call : ShutdownCall}
    (hd : (rt.shutdowns d).PastDrain) (hcall : call ≠ .locking) :
    OwnerInv (rt.setShutdown d call) := by
  refine { h with locking_closed := fun e he => ?_, pastDrain_drained := fun e he => ?_ }
  · refine h.locking_closed e ?_
    rcases eq_or_ne e d with rfl | hed
    · simp [UdpRuntime.setShutdown, hcall] at he
    · simpa [UdpRuntime.setShutdown, hed] using he
  · exact h.pastDrain_drained d hd

theorem OwnerInv.call (h : OwnerInv rt) (spec : UdpSessionSpec) (listener : Bool) :
    OwnerInv { rt with
      calls := Function.update rt.calls rt.numCalls ⟨spec, listener, .checkClosed⟩
      numCalls := rt.numCalls + 1 } := by
  have hidle := h.fresh_call rt.numCalls le_rfl
  have hold : ∀ j n, (Function.update rt.calls rt.numCalls
      ⟨spec, listener, .checkClosed⟩ j).pc.owned? = some n →
      j ≠ rt.numCalls ∧ (rt.calls j).pc.owned? = some n := by
    intro j n hj
    rcases eq_or_ne j rt.numCalls with rfl | hne
    · simp [CallPc.owned?] at hj
    · rw [Function.update_of_ne hne] at hj
      exact ⟨hne, hj⟩
  refine { h with
    fresh_call := fun j hj => ?_
    owned_lt := fun j n hj => h.owned_lt j n (hold j n hj).2
    owned_entry := fun hd j n hj => ?_
    owner_unique := fun j j' n m hj hj' hkey => ?_
    waiting_entry := fun j n hj => ?_ }
  · have hne : j ≠ rt.numCalls := Nat.ne_of_gt hj
    dsimp only
    rw [Function.update_of_ne hne]
    exact h.fresh_call j (Nat.le_of_succ_le hj)
  · obtain ⟨hne, hj⟩ := hold j n hj
    dsimp only
    rw [Function.update_of_ne hne]
    exact h.owned_entry hd j n hj
  · obtain ⟨hne, hj⟩ := hold j n hj
    obtain ⟨hne', hj'⟩ := hold j' m hj'
    dsimp only at hkey
    rw [Function.update_of_ne hne, Function.update_of_ne hne'] at hkey
    exact h.owner_unique j j' n m hj hj' hkey
  · dsimp only at hj ⊢
    rcases eq_or_ne j rt.numCalls with rfl | hne
    · simp at hj
    rw [Function.update_of_ne hne] at hj ⊢
    refine (h.waiting_entry j n hj).imp_right ?_
    rintro ⟨w, hw⟩
    have hw' : w ≠ rt.numCalls := by
      rintro rfl
      rw [hidle] at hw
      cases hw
    exact ⟨w, by rw [Function.update_of_ne hw', hw]⟩

theorem OwnerInv.beginShutdown (h : OwnerInv rt) :
    OwnerInv { rt.setShutdown rt.numShutdowns .locking with
      closed := true
      numShutdowns := rt.numShutdowns + 1 } := by
  refine { h with
    drained_closed := fun _ => rfl
    locking_closed := fun _ _ => rfl
    pastDrain_drained := fun e he => h.pastDrain_drained e ?_ }
  rcases eq_or_ne e rt.numShutdowns with rfl | hed
  · simp [UdpRuntime.setShutdown, ShutdownCall.PastDrain] at he
  · simpa [UdpRuntime.setShutdown, hed] using he

/-- **Owners, whatever is aborted.** Every step of every task keeps `OwnerInv`. -/
theorem OwnerInv.step {a : Action} (h : OwnerInv rt) (hs : rt.step a = some rt') :
    OwnerInv rt' := by
  cases Effect.of_step hs with
  | call spec listener => exact h.call spec listener
  | check i pc hi hpc =>
    refine h.setPc (by simp [hi]) (fun n hn => ?_) (fun n hn => ?_) (by simp [hi])
    · rcases hpc with rfl | rfl <;> simp [CallPc.owned?] at hn
    · rcases hpc with rfl | rfl <;> cases hn
  | refuse i hi | reuse i s hi | retry i n hi =>
    exact h.setPc (by simp [hi]) (by simp [CallPc.owned?]) (by simp) (by simp [hi])
  | wait i n hi hopen hk =>
    refine h.setPc (by simp [hi]) (by simp [CallPc.owned?]) (fun m hm => ?_) (by simp [hi])
    cases hm
    exact hk
  | reserve i hi hopen hk => exact { h.reserve (c := rt.numCreations) hi hopen hk with }
  | joined i n c hi | joinFailed i n c hi =>
    exact h.setPc (by simp [hi]) (by simp [hi, CallPc.owned?]) (by simp) (by simp [hi])
  | publishCancelled i n c s hi =>
    have hown : (rt.calls i).pc.owned? = some n := by rw [hi]; rfl
    have hpc : (CallPc.abortingRecv s).owned? = none := rfl
    exact { h.releaseNone hown hpc (by simp) with }
  | publishError i n c e hi =>
    exact h.releaseNone (by simp [hi, CallPc.owned?]) rfl (by simp)
  | publishReady i n c s hi hopen =>
    refine h.release (by simp [hi, CallPc.owned?]) (fun k hk => ?_) (by simp) (fun hd => ?_) rfl
      (by simp)
    · rw [HashMap.lookup_insert_eq_ite, if_neg hk]
    · rw [h.drained_closed hd] at hopen
      cases hopen
  | remove i n hi => exact h.remove hi
  | notify i n hi => exact h.notify hi rfl (by simp)
  | abortRecv i s hi =>
    have hrecv : OwnerInv (rt.abortRecv s) := { h with }
    refine hrecv.setPc ?_ (by simp [CallPc.owned?]) (by simp) ?_
    · simp [UdpRuntime.abortRecv, setRecv, hi]
    · simp [UdpRuntime.abortRecv, setRecv, hi]
  | abort i hi =>
    refine h.setPc (fun hidle => ?_) (by simp [CallPc.owned?]) (by simp) (fun n hn => ?_)
    · simp [hidle, CallPc.atAwait] at hi
    · simp [hn, CallPc.atAwait] at hi
  | connectFailed | connected | ready | recvStart | recvExit | recvFinish | touch | gcSnapshot
  | gcCheck | gcAbort | gcDone => exact { h with }
  | recvRemove s hs hk => exact { h.removeReady hk with }
  | gcRemove g now expired hg => exact { h.removedFrom (removeExpired_spec now expired rt) with }
  | shutdown => exact h.beginShutdown
  | shutdownDrain d hd => exact h.drain hd
  | reapAbort d ok s rest hd =>
    have hrecv : OwnerInv (rt.abortRecv s) := { h with }
    exact hrecv.setShutdown (.inl ⟨_, _, hd⟩) (by simp)
  | reapJoin d ok s rest hd | shutdownReturn d ok hd =>
    exact h.setShutdown (.inl ⟨_, _, hd⟩) (by simp)

theorem ownerInv_new (timeoutSecs : ℕ) : OwnerInv (new timeoutSecs) where
  fresh_call _ _ := rfl
  owned_lt _ _ h := by cases h
  creating_lt _ _ h := by cases h
  owned_entry _ _ _ h := by cases h
  drained_entry h := by cases h
  drained_closed h := by cases h
  owner_unique _ _ _ _ h := by cases h
  waiting_entry _ _ h := by cases h
  locking_closed _ h := by cases h
  pastDrain_drained _ h := by simp [new, ShutdownCall.PastDrain] at h

/-! ### Owners of creations -/

/-- The condition on a step that no call is aborted between handing its creation to
`tokio::spawn` and publishing the result. -/
def Harmless (rt : UdpRuntime) (a : Action) : Prop :=
  ∀ i, a = .abort i → (rt.calls i).pc.creation? = none

/-- The condition on a step that no call is aborted. -/
def NoAbort (_ : UdpRuntime) (a : Action) : Prop :=
  ∀ i, a ≠ .abort i

theorem NoAbort.harmless {a : Action} (h : NoAbort rt a) : Harmless rt a :=
  fun i hi => absurd hi (h i)

/-- Each creation belongs to the one call that will publish it, and runs only while that call
waits for it. -/
structure CreationInv (rt : UdpRuntime) : Prop where
  fresh_creation : ∀ c, rt.numCreations ≤ c → (rt.creations c).task = .unused
  creation_lt : ∀ i c, (rt.calls i).pc.creation? = some c → c < rt.numCreations
  creation_unique : ∀ i j c, (rt.calls i).pc.creation? = some c →
    (rt.calls j).pc.creation? = some c → i = j
  creation_spec : ∀ i c, (rt.calls i).pc.creation? = some c →
    (rt.creations c).spec = (rt.calls i).spec
  running_owner : ∀ c, (rt.creations c).task.Running → ∃ i n, (rt.calls i).pc = .joining n c

namespace CreationInv

/-- A call moves on: it keeps its creation or gives it up after the creation has ended. -/
theorem setPc (h : CreationInv rt)
    (hkeep : ∀ c, pc.creation? = some c → (rt.calls i).pc.creation? = some c)
    (hend : ∀ n c, (rt.calls i).pc = .joining n c → ¬ (rt.creations c).task.Running) :
    CreationInv (rt.setPc i pc) := by
  have hcreation : ∀ j c, ((rt.setPc i pc).calls j).pc.creation? = some c →
      (rt.calls j).pc.creation? = some c := by
    intro j c hj
    rw [pc_setPc] at hj
    split_ifs at hj with hji
    · exact hji ▸ hkeep c hj
    · exact hj
  refine ⟨h.fresh_creation, fun j c hj => h.creation_lt j c (hcreation j c hj),
    fun j j' c hj hj' => h.creation_unique j j' c (hcreation j c hj) (hcreation j' c hj'),
    fun j c hj => ?_, fun c hc => ?_⟩
  · rw [spec_setPc]
    exact h.creation_spec j c (hcreation j c hj)
  · obtain ⟨j, n, hj⟩ := h.running_owner c hc
    refine ⟨j, n, ?_⟩
    have hji : j ≠ i := by
      rintro rfl
      exact hend n c hj hc
    rw [pc_setPc, if_neg hji, hj]

/-- Notifications change neither creations nor their owners. -/
theorem woken (h : CreationInv rt) {calls : ℕ → Call}
    (hw : ∀ j, WokenFrom (rt.calls j) (calls j)) : CreationInv { rt with calls } := by
  refine ⟨h.fresh_creation, fun j c hj => ?_, fun j j' c hj hj' => ?_, fun j c hj => ?_,
    fun c hc => ?_⟩
  · exact h.creation_lt j c ((hw j).creation?_eq ▸ hj)
  · exact h.creation_unique j j' c ((hw j).creation?_eq ▸ hj) ((hw j').creation?_eq ▸ hj')
  · rw [(hw j).spec_eq]
    exact h.creation_spec j c ((hw j).creation?_eq ▸ hj)
  · obtain ⟨j, n, hj⟩ := h.running_owner c hc
    exact ⟨j, n, ((hw j).pc_eq_iff (by simp)).mpr hj⟩

theorem notifyWaiters (h : CreationInv rt) (n : NotifyId) : CreationInv (rt.notifyWaiters n) :=
  h.woken fun _ => wokenFrom_wake n _

theorem setTask (h : CreationInv rt) {c : ℕ} (hc : (rt.creations c).task.Running)
    (task : CreateTask) : CreationInv (rt.setTask c task) := by
  have hlt : c < rt.numCreations := by
    by_contra hge
    rw [h.fresh_creation c (not_lt.mp hge)] at hc
    simp [CreateTask.Running] at hc
  refine ⟨fun e he => ?_, h.creation_lt, h.creation_unique, fun j e hj => ?_, fun e he => ?_⟩
  · have hec : e ≠ c := by
      rintro rfl
      exact absurd he (not_le.mpr hlt)
    simpa [UdpRuntime.setTask, hec] using h.fresh_creation e he
  · refine Eq.trans ?_ (h.creation_spec j e hj)
    rcases eq_or_ne e c with rfl | hec
    · simp [UdpRuntime.setTask]
    · simp [UdpRuntime.setTask, hec]
  · refine h.running_owner e ?_
    rcases eq_or_ne e c with rfl | hec
    · exact hc
    · simpa [UdpRuntime.setTask, hec] using he

/-- A call spawns a creation. -/
theorem reserve (h : CreationInv rt) (hi : (rt.calls i).pc = .lockMap) :
    CreationInv { rt.setPc i (.joining n rt.numCreations) with
      creations := Function.update rt.creations rt.numCreations ⟨(rt.calls i).spec, .connecting⟩
      numCreations := rt.numCreations + 1 } := by
  have hlt : ∀ j c, (rt.calls j).pc.creation? = some c → c ≠ rt.numCreations :=
    fun j c hj => (h.creation_lt j c hj).ne
  -- afterwards a call has its old creation, or it is `i` with the new one
  have hcreation : ∀ j c,
      ((rt.setPc i (.joining n rt.numCreations)).calls j).pc.creation? = some c →
      (rt.calls j).pc.creation? = some c ∨ j = i ∧ c = rt.numCreations := by
    intro j c hj
    rw [pc_setPc] at hj
    split_ifs at hj with hji
    · exact .inr ⟨hji, (Option.some.inj hj).symm⟩
    · exact .inl hj
  refine ⟨fun c hc => ?_, fun j c hj => ?_, fun j j' c hj hj' => ?_, fun j c hj => ?_,
    fun c hc => ?_⟩
  · have hle : rt.numCreations + 1 ≤ c := hc
    have hne : c ≠ rt.numCreations := by omega
    simpa [hne] using h.fresh_creation c (by omega)
  · rcases hcreation j c hj with hold | ⟨-, rfl⟩
    · exact Nat.lt_succ_of_lt (h.creation_lt j c hold)
    · exact Nat.lt_succ_self _
  · rcases hcreation j c hj with hold | ⟨rfl, hc⟩
    · rcases hcreation j' c hj' with hold' | ⟨-, hc'⟩
      · exact h.creation_unique j j' c hold hold'
      · exact absurd hc' (hlt j c hold)
    · rcases hcreation j' c hj' with hold' | ⟨rfl, -⟩
      · exact absurd hc (hlt j' c hold')
      · rfl
  · change (Function.update rt.creations rt.numCreations _ c).spec =
      ((UdpRuntime.setPc rt i _).calls j).spec
    rw [spec_setPc]
    rcases hcreation j c hj with hold | ⟨rfl, rfl⟩
    · rw [Function.update_of_ne (hlt j c hold)]
      exact h.creation_spec j c hold
    · rw [Function.update_self]
  · change ∃ j m, ((UdpRuntime.setPc rt i _).calls j).pc = .joining m c
    rcases eq_or_ne c rt.numCreations with rfl | hne
    · exact ⟨i, n, by rw [pc_setPc, if_pos rfl]⟩
    · have hc' : (rt.creations c).task.Running := by simpa [hne] using hc
      obtain ⟨j, m, hj⟩ := h.running_owner c hc'
      refine ⟨j, m, ?_⟩
      have hji : j ≠ i := by
        rintro rfl
        rw [hi] at hj
        cases hj
      rw [pc_setPc, if_neg hji, hj]

/-- A creation that is being published has ended. -/
theorem succeeded_of_publishing (h : CreationInv rt) {c : ℕ} {s : SessionId}
    (hi : (rt.calls i).pc = .publishing n c) (hc : (rt.creations c).task.session? = some s) :
    (rt.creations c).task = .succeeded s := by
  cases htask : (rt.creations c).task with
  | awaitingReady t =>
    obtain ⟨j, m, hj⟩ := h.running_owner c (.inr ⟨t, htask⟩)
    have hij := h.creation_unique i j c (by rw [hi]; rfl) (by rw [hj]; rfl)
    subst hij
    rw [hi] at hj
    cases hj
  | succeeded t =>
    rw [htask] at hc
    cases hc
    rfl
  | unused | connecting | failed | panicked =>
    rw [htask] at hc
    cases hc

/-- A call that owns no creation moves to a point where it owns none. -/
theorem setPc_none (h : CreationInv rt) (hi : (rt.calls i).pc.creation? = none)
    (hpc : pc.creation? = none) : CreationInv (rt.setPc i pc) := by
  refine h.setPc (fun c hc => ?_) (fun n c hc => ?_)
  · rw [hpc] at hc
    cases hc
  · rw [hc] at hi
    cases hi

/-- A new call owns no creation. -/
theorem call (h : CreationInv rt) (hidle : (rt.calls rt.numCalls).pc = .idle)
    (spec : UdpSessionSpec) (listener : Bool) :
    CreationInv { rt with
      calls := Function.update rt.calls rt.numCalls ⟨spec, listener, .checkClosed⟩
      numCalls := rt.numCalls + 1 } := by
  have hcreation : ∀ j c, (Function.update rt.calls rt.numCalls
      ⟨spec, listener, .checkClosed⟩ j).pc.creation? = some c →
      j ≠ rt.numCalls ∧ (rt.calls j).pc.creation? = some c := by
    intro j c hj
    rcases eq_or_ne j rt.numCalls with rfl | hne
    · simp [CallPc.creation?] at hj
    · rw [Function.update_of_ne hne] at hj
      exact ⟨hne, hj⟩
  refine ⟨h.fresh_creation, fun j c hj => h.creation_lt j c (hcreation j c hj).2,
    fun j j' c hj hj' => h.creation_unique j j' c (hcreation j c hj).2 (hcreation j' c hj').2,
    fun j c hj => ?_, fun c hc => ?_⟩
  · obtain ⟨hne, hj⟩ := hcreation j c hj
    change _ = (Function.update rt.calls rt.numCalls _ j).spec
    rw [Function.update_of_ne hne]
    exact h.creation_spec j c hj
  · obtain ⟨j, n, hj⟩ := h.running_owner c hc
    refine ⟨j, n, ?_⟩
    have hne : j ≠ rt.numCalls := by
      rintro rfl
      rw [hidle] at hj
      cases hj
    change (Function.update rt.calls rt.numCalls _ j).pc = _
    rw [Function.update_of_ne hne, hj]

/-- A call publishes the outcome of its creation. -/
theorem publish (h : CreationInv rt) {c : ℕ} (hi : (rt.calls i).pc = .publishing n c)
    (sessions : HashMap UdpSessionKey UdpSessionEntry) (hpc : pc.creation? = none) :
    CreationInv (({ rt with sessions }.notifyWaiters n).setPc i pc) := by
  have hmap : CreationInv { rt with sessions } := { h with }
  refine (hmap.notifyWaiters n).setPc (fun e he => ?_) (fun m e he => ?_)
  · rw [hpc] at he
    cases he
  · have he' : (rt.calls i).pc = .joining m e := (Call.pc_wake_eq_iff (by simp)).mp he
    rw [hi] at he'
    cases he'

/-- **Owners of creations.** Every step that aborts no owner of a creation keeps
`CreationInv`. -/
theorem step {a : Action} (h : CreationInv rt) (ha : Harmless rt a)
    (howner : OwnerInv rt) (hs : rt.step a = some rt') : CreationInv rt' := by
  cases Effect.of_step hs with
  | call spec listener => exact h.call (howner.fresh_call rt.numCalls le_rfl) spec listener
  | check i pc hi hpc =>
    refine h.setPc_none (by rw [hi]; rfl) ?_
    rcases hpc with rfl | rfl <;> rfl
  | refuse i hi | reuse i s hi | retry i n hi | wait i n hi =>
    exact h.setPc_none (by rw [hi]; rfl) rfl
  | reserve i hi hopen hk => exact { h.reserve (n := rt.numNotifies) hi with }
  | joined i n c hi htask =>
    refine h.setPc (fun e he => ?_) (fun m e he => ?_)
    · rw [hi]
      exact he
    · rw [hi] at he
      cases he
      rcases htask with htask | ⟨s, htask⟩ <;> simp [htask, CreateTask.Running]
  | joinFailed i n c hi htask =>
    refine h.setPc (fun e he => ?_) (fun m e he => ?_)
    · cases he
    · rw [hi] at he
      cases he
      simp [htask, CreateTask.Running]
  | publishCancelled i n c s hi =>
    have hpc : (CallPc.abortingRecv s).creation? = none := rfl
    exact { h.publish hi (rt.sessions.erase (rt.calls i).spec.key) hpc with }
  | publishError i n c e hi => exact h.publish hi _ rfl
  | publishReady i n c s hi => exact h.publish hi _ rfl
  | remove i n hi =>
    have hmap : CreationInv (rt.removeEntry (rt.calls i).spec.key) := { h with }
    exact hmap.setPc_none (by simp [removeEntry, hi, CallPc.creation?]) rfl
  | notify i n hi =>
    refine (h.notifyWaiters n).setPc_none ?_ rfl
    change ((rt.calls i).wake n).pc.creation? = none
    rw [Call.creation?_wake, hi]
    rfl
  | abortRecv i s hi =>
    have hrecv : CreationInv (rt.abortRecv s) := { h with }
    exact hrecv.setPc_none (by simp [UdpRuntime.abortRecv, setRecv, hi, CallPc.creation?]) rfl
  | abort i hi => exact h.setPc_none (ha i rfl) rfl
  | connectFailed c outcome task hc => exact h.setTask (.inl hc) task
  | connected c outbound now hc =>
    exact { h.setTask (.inl hc) (.awaitingReady rt.numSessions) with }
  | ready c s hc => exact h.setTask (.inr ⟨s, hc⟩) _
  | recvStart | recvExit | recvRemove | recvFinish | touch | gcSnapshot
  | gcCheck | gcAbort | gcDone | shutdown | reapAbort | reapJoin | shutdownReturn =>
    exact { h with }
  | gcRemove g now expired hg =>
    rw [(removeExpired_spec now expired rt).eq]
    exact { h with }
  | shutdownDrain d hd =>
    obtain ⟨calls, heq, hwoken, -⟩ := rt.drain_eq d
    rw [heq]
    exact { h.woken hwoken with }

end CreationInv

theorem creationInv_new (timeoutSecs : ℕ) : CreationInv (new timeoutSecs) where
  fresh_creation _ _ := rfl
  creation_lt _ _ h := by cases h
  creation_unique _ _ _ h := by cases h
  creation_spec _ _ h := by cases h
  running_owner _ h := by simp [new, CreateTask.Running] at h

/-! ### Whole runs -/

theorem ownerInv_of_steps {timeoutSecs : ℕ} {P : UdpRuntime → Action → Prop}
    (h : Steps step P (new timeoutSecs) rt) : OwnerInv rt :=
  h.invariant (ownerInv_new timeoutSecs) fun _ _ _ ht _ hs => ht.step hs

theorem creationInv_of_steps {timeoutSecs : ℕ} (h : Steps step Harmless (new timeoutSecs) rt) :
    CreationInv rt := by
  have hboth : OwnerInv rt ∧ CreationInv rt := by
    refine h.invariant (I := fun t => OwnerInv t ∧ CreationInv t)
      ⟨ownerInv_new timeoutSecs, creationInv_new timeoutSecs⟩ ?_
    intro t a u ht ha hs
    exact ⟨ht.1.step hs, ht.2.step ha ht.1 hs⟩
  exact hboth.2

/-- What a shutdown has cleared stays cleared: `drained` is never reset. -/
theorem drained_of_steps {P : UdpRuntime → Action → Prop} (h : Steps step P rt rt')
    (hd : rt.drained = true) : rt'.drained = true := by
  refine h.invariant (I := fun t => t.drained = true) hd ?_
  intro t a u ht _ hs
  cases Effect.of_step hs with
  | gcRemove g now expired =>
    rw [(removeExpired_spec now expired t).eq]
    exact ht
  | shutdownDrain d => rfl
  | _ => exact ht

/-- Creations are numbered in the order in which they are spawned. -/
theorem creation_unused_of_steps {timeoutSecs : ℕ} {P : UdpRuntime → Action → Prop}
    (h : Steps step P (new timeoutSecs) rt) :
    ∀ c, rt.numCreations ≤ c → (rt.creations c).task = .unused := by
  refine h.invariant (I := fun t => ∀ c, t.numCreations ≤ c → (t.creations c).task = .unused)
    (fun _ _ => rfl) ?_
  intro t a u ht _ hs
  have htask : ∀ (c : ℕ) (task : CreateTask), (t.creations c).task ≠ .unused →
      ∀ e, t.numCreations ≤ e → ((t.setTask c task).creations e).task = .unused := by
    intro c task hc e he
    have hec : e ≠ c := by
      rintro rfl
      exact hc (ht e he)
    simpa [setTask, hec] using ht e he
  cases Effect.of_step hs with
  | reserve i =>
    intro c hc
    have hle : t.numCreations + 1 ≤ c := hc
    have hne : c ≠ t.numCreations := by omega
    simpa [hne] using ht c (by omega)
  | connectFailed c outcome task hc => exact htask c task (by simp [hc])
  | connected c outbound now hc => exact htask c _ (by simp [hc])
  | ready c s hc => exact htask c _ (by simp [hc])
  | gcRemove g now expired =>
    rw [(removeExpired_spec now expired t).eq]
    exact ht
  | shutdownDrain d =>
    obtain ⟨calls, heq, -⟩ := t.drain_eq d
    rw [heq]
    exact ht
  | _ => exact ht

/-- Two running creations of one key are the same creation. -/
theorem running_unique (howner : OwnerInv rt) (h : CreationInv rt) {c c' : ℕ}
    (hc : (rt.creations c).task.Running) (hc' : (rt.creations c').task.Running)
    (hkey : (rt.creations c).spec.key = (rt.creations c').spec.key) : c = c' := by
  obtain ⟨i, n, hi⟩ := h.running_owner c hc
  obtain ⟨j, m, hj⟩ := h.running_owner c' hc'
  have hspec := h.creation_spec i c (by rw [hi]; rfl)
  have hspec' := h.creation_spec j c' (by rw [hj]; rfl)
  have hij : i = j := by
    refine howner.owner_unique i j n m (by rw [hi]; rfl) (by rw [hj]; rfl) ?_
    rw [← hspec, ← hspec', hkey]
  subst hij
  rw [hi] at hj
  exact (CallPc.joining.inj hj).2

/-- **Single flight.** In every run in which no call is aborted: two running creations of one key
are the same, and so are two calls of one key that have inserted a `Creating` entry and not yet
given it up; a call waiting on a `Notify` that has not been woken has the `Creating` entry with
that `Notify` at its key, or the call that removed this entry on the path of a failed join has
`notify_waiters` as its next step; and after a `shutdown` has held the map lock no state of the
run has a `Ready` entry. -/
theorem single_flight {timeoutSecs : ℕ} (h : Steps step NoAbort (new timeoutSecs) rt) :
    (∀ c c', (rt.creations c).task.Running → (rt.creations c').task.Running →
      (rt.creations c).spec.key = (rt.creations c').spec.key → c = c') ∧
    (∀ i j n m, (rt.calls i).pc.owned? = some n → (rt.calls j).pc.owned? = some m →
      (rt.calls i).spec.key = (rt.calls j).spec.key → i = j) ∧
    (∀ i n, (rt.calls i).pc = .waiting n false →
      rt.entry (rt.calls i).spec.key = some (.creating n) ∨
        ∃ j, (rt.calls j).pc = .notifying n) ∧
    ∀ d, (rt.shutdowns d).PastDrain → ∀ rt', Steps step NoAbort rt rt' →
      ∀ k s, rt'.entry k ≠ some (.ready s) := by
  have howner := ownerInv_of_steps h
  have hcreation := creationInv_of_steps (h.mono fun _ _ => NoAbort.harmless)
  refine ⟨fun c c' hc hc' => running_unique howner hcreation hc hc', howner.owner_unique,
    howner.waiting_entry, fun d hd rt' h' k s hk => ?_⟩
  have hdrained := drained_of_steps h' (howner.pastDrain_drained d hd)
  have howner' := ownerInv_of_steps (h.trans h')
  rw [howner'.drained_entry hdrained k] at hk
  cases hk

/-- Two calls for one key: the first reserves the entry, the second waits for it. -/
def reserveAndWait (spec : UdpSessionSpec) : List Action :=
  [.call spec false, .call spec false, .advance 0, .advance 0, .advance 1, .advance 1]

theorem single_flight_reserveAndWait : ∃ rt, Steps step NoAbort (new 60) rt ∧
    (rt.calls 1).pc = .waiting 0 false ∧
    (rt.entry (rt.calls 1).spec.key = some (.creating 0) ∨
      ∃ j, (rt.calls j).pc = .notifying 0) := by
  obtain ⟨rt, hrt, hpc⟩ : ∃ rt, Steps step NoAbort (new 60) rt ∧
      (rt.calls 1).pc = .waiting 0 false :=
    exists_steps_of_run (l := reserveAndWait default) (by simp [reserveAndWait, NoAbort])
      (by decide +kernel)
  exact ⟨rt, hrt, hpc, (single_flight hrt).2.2.1 1 0 hpc⟩

/-- The window of the failed join: the creation panics, its caller removes the entry and drops
the lock; the waiting call has neither the entry nor a wake-up. -/
theorem waiter_without_entry : ∃ rt, Steps step NoAbort (new 60) rt ∧
    (rt.calls 1).pc = .waiting 0 false ∧ rt.entry (rt.calls 1).spec.key = none :=
  exists_steps_of_run
    (l := reserveAndWait default ++ [.connect 0 .panicked, .advance 0, .advance 0])
    (by simp [reserveAndWait, NoAbort]) (by decide +kernel)

end UdpRuntime

end XtpRs.Udp
