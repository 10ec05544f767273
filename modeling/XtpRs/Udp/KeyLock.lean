import XtpRs.Lib.Run
import XtpRs.Udp.Session

/-!
# Key locks

The packets of one flow are handled one after the other: `spawn_udp_packet_handler` of
`src/udp/mod.rs` fetches the lock of the packet's key from a table, which it creates if there is
none, and the task it spawns owns the lock until it ends and holds it while it handles the packet.
Locks that only the table references are removed now and then.

A lock object is named by a number; a lock that is created gets a new one. The number of references
to a lock is a function of the state: its entries in the table, and the packets that own it. The
semaphore that bounds the number of tasks only drops packets and is left out.

## Main definitions

* `KeyLocks`, `KeyLocks.step`: the table, the packets, and every step that they take.
* `KeyLocks.Inv`: the invariant.

## Main results

* `KeyLocks.Inv.step`: one step keeps the invariant.
* `KeyLocks.same_flow_exclusive`: every run.
-/

namespace XtpRs.Udp

open Lib

/-- Where a packet is: its lock has been fetched, its task has been spawned and waits for the lock,
holds it and handles the packet, has released it, or has ended and dropped its reference. -/
inductive PacketPhase
  | fetched
  | waiting
  | handling
  | released
  | ended
  deriving DecidableEq, Repr

/-- A packet with the key of its flow and the lock object it was given. -/
structure PacketTask where
  key : UdpSessionKey
  lock : ℕ
  phase : PacketPhase
  deriving DecidableEq, Repr

/-- The packet owns a reference to its lock. -/
def PacketTask.live (t : PacketTask) : Bool := t.phase != .ended

/-- `UdpKeyLocks` of one UDP loop, with the packets that arrived so far. -/
structure KeyLocks where
  table : HashMap UdpSessionKey ℕ := ∅
  numLocks : ℕ := 0
  tasks : List PacketTask := []

namespace KeyLocks

/-- `Arc::strong_count` of a lock. -/
def strongCount (st : KeyLocks) (lock : ℕ) : ℕ :=
  (st.table.toList.filter fun e => e.2 == lock).length +
    (st.tasks.filter fun t => t.live && t.lock == lock).length

/-- `get_udp_key_lock`: the lock, and the table with it. -/
def getUdpKeyLock (st : KeyLocks) (key : UdpSessionKey) : ℕ × KeyLocks :=
  match st.table.lookup key with
  | some lock => (lock, st)
  | none =>
    (st.numLocks, { st with
      table := st.table.insert key st.numLocks
      numLocks := st.numLocks + 1 })

/-- `reap_idle_udp_key_locks`. -/
def reapIdleUdpKeyLocks (st : KeyLocks) : KeyLocks :=
  { st with table := st.table.retain fun _ lock => 1 < st.strongCount lock }

/-- No task holds the lock. -/
def isFree (st : KeyLocks) (lock : ℕ) : Bool :=
  st.tasks.all fun t => !(t.phase == .handling && t.lock == lock)

/-- A packet moves to another phase. -/
def setPhase (st : KeyLocks) (i : ℕ) (t : PacketTask) (phase : PacketPhase) : KeyLocks :=
  { st with tasks := st.tasks.set i { t with phase } }

/-- The steps. A task can also be dropped before it has handled its packet. -/
inductive Action
  | arrive (key : UdpSessionKey)
  | spawn (i : ℕ)
  | acquire (i : ℕ)
  | release (i : ℕ)
  | drop (i : ℕ)
  | reap
  deriving DecidableEq, Repr

def step (st : KeyLocks) : Action → Option KeyLocks
  | .arrive key =>
    let (lock, st) := st.getUdpKeyLock key
    some { st with tasks := st.tasks ++ [⟨key, lock, .fetched⟩] }
  | .spawn i => do
    let t ← st.tasks[i]?
    if t.phase = .fetched then some (st.setPhase i t .waiting) else none
  | .acquire i => do
    let t ← st.tasks[i]?
    if t.phase = .waiting ∧ st.isFree t.lock then some (st.setPhase i t .handling) else none
  | .release i => do
    let t ← st.tasks[i]?
    if t.phase = .handling then some (st.setPhase i t .released) else none
  | .drop i => do
    let t ← st.tasks[i]?
    if t.live then some (st.setPhase i t .ended) else none
  | .reap => some st.reapIdleUdpKeyLocks

/-! ### One step -/

variable {st st' : KeyLocks} {i : ℕ} {t : PacketTask} {key : UdpSessionKey}

/-- What a step can do: a packet arrives, a packet changes its phase, or the table is reaped. A task
starts to handle its packet only when its lock is free. -/
theorem step_cases {a : Action} (h : st.step a = some st') :
    (∃ key lock st₁, st.getUdpKeyLock key = (lock, st₁) ∧
      st' = { st₁ with tasks := st₁.tasks ++ [⟨key, lock, .fetched⟩] }) ∨
    (∃ i t phase, st.tasks[i]? = some t ∧ t.live = true ∧
      (phase = .handling → st.isFree t.lock = true) ∧ st' = st.setPhase i t phase) ∨
    st' = st.reapIdleUdpKeyLocks := by
  cases a with
  | arrive key =>
    cases h
    exact .inl ⟨key, _, _, rfl, rfl⟩
  | spawn i =>
    obtain ⟨t, ht, hs⟩ := Option.bind_eq_some_iff.mp h
    split_ifs at hs with hphase
    cases hs
    exact .inr (.inl ⟨i, t, .waiting, ht, by simp [PacketTask.live, hphase], by simp, rfl⟩)
  | acquire i =>
    obtain ⟨t, ht, hs⟩ := Option.bind_eq_some_iff.mp h
    split_ifs at hs with hphase
    cases hs
    exact .inr (.inl ⟨i, t, .handling, ht, by simp [PacketTask.live, hphase.1],
      fun _ => hphase.2, rfl⟩)
  | release i =>
    obtain ⟨t, ht, hs⟩ := Option.bind_eq_some_iff.mp h
    split_ifs at hs with hphase
    cases hs
    exact .inr (.inl ⟨i, t, .released, ht, by simp [PacketTask.live, hphase], by simp, rfl⟩)
  | drop i =>
    obtain ⟨t, ht, hs⟩ := Option.bind_eq_some_iff.mp h
    split_ifs at hs with hlive
    cases hs
    exact .inr (.inl ⟨i, t, .ended, ht, hlive, by simp, rfl⟩)
  | reap =>
    cases h
    exact .inr (.inr rfl)

/-- The lock that is fetched stands in the table afterwards, and the locks of other entries stay. -/
theorem getUdpKeyLock_spec (st : KeyLocks) (key : UdpSessionKey) :
    (st.getUdpKeyLock key).2.table.lookup key = some (st.getUdpKeyLock key).1 ∧
    (st.getUdpKeyLock key).2.tasks = st.tasks ∧
    ∀ key' lock, st.table.lookup key' = some lock →
      (st.getUdpKeyLock key).2.table.lookup key' = some lock := by
  unfold getUdpKeyLock
  cases hkey : st.table.lookup key with
  | some lock => exact ⟨hkey, rfl, fun key' lock' h => h⟩
  | none =>
    refine ⟨AList.lookup_insert st.table, rfl, fun key' lock' h => ?_⟩
    have hne : key' ≠ key := by
      rintro rfl
      rw [hkey] at h
      cases h
    change (st.table.insert key st.numLocks).lookup key' = some lock'
    rw [AList.lookup_insert_ne hne, h]

/-- A lock that a packet owns has a reference besides the one of its entry. -/
theorem one_lt_strongCount (hi : st.tasks[i]? = some t) (hlive : t.live = true)
    (hentry : st.table.lookup t.key = some t.lock) : 1 < st.strongCount t.lock := by
  have htable : 0 < (st.table.toList.filter fun e => e.2 == t.lock).length := by
    refine List.length_pos_of_mem (a := (t.key, t.lock)) ?_
    rw [List.mem_filter]
    exact ⟨(HashMap.mem_toList _).mpr hentry, by simp⟩
  have htasks : 0 < (st.tasks.filter fun u => u.live && u.lock == t.lock).length := by
    refine List.length_pos_of_mem (a := t) ?_
    rw [List.mem_filter]
    exact ⟨List.mem_of_getElem? hi, by simp [hlive]⟩
  rw [strongCount]
  omega

/-- Reaping keeps the entry of a lock that a packet owns. -/
theorem lookup_reap (hi : st.tasks[i]? = some t) (hlive : t.live = true)
    (hentry : st.table.lookup t.key = some t.lock) :
    st.reapIdleUdpKeyLocks.table.lookup t.key = some t.lock := by
  rw [← Option.mem_def, AList.mem_lookup_iff] at hentry ⊢
  refine List.mem_filter.mpr ⟨hentry, ?_⟩
  rw [AList.mem_lookup_iff.symm, Option.mem_def] at hentry
  exact decide_eq_true (one_lt_strongCount hi hlive hentry)

/-! ### Every run -/

/-- Every packet that owns a lock owns the one in the table, and a lock is held by one task at
most. -/
structure Inv (st : KeyLocks) : Prop where
  entry : ∀ (i : ℕ) (t : PacketTask), st.tasks[i]? = some t → t.live = true →
    st.table.lookup t.key = some t.lock
  exclusive : ∀ (i j : ℕ) (t u : PacketTask), st.tasks[i]? = some t → st.tasks[j]? = some u →
    t.phase = .handling → u.phase = .handling → t.lock = u.lock → i = j

namespace Inv

theorem new : Inv {} where
  entry i t hi := by simp at hi
  exclusive i j t u hi := by simp at hi

/-- A packet arrives with the lock in the table; it does not hold it. -/
theorem arrive (h : Inv st) (key : UdpSessionKey) :
    Inv { (st.getUdpKeyLock key).2 with
      tasks := (st.getUdpKeyLock key).2.tasks ++ [⟨key, (st.getUdpKeyLock key).1, .fetched⟩] } := by
  obtain ⟨hkey, htasks, hkept⟩ := st.getUdpKeyLock_spec key
  have hcases : ∀ {i : ℕ} {t : PacketTask},
      (st.tasks ++ [⟨key, (st.getUdpKeyLock key).1, .fetched⟩])[i]? = some t →
        st.tasks[i]? = some t ∨ t = ⟨key, (st.getUdpKeyLock key).1, .fetched⟩ := by
    intro i t hi
    rw [List.getElem?_append] at hi
    split_ifs at hi with hlt
    · exact .inl hi
    · exact .inr (List.mem_singleton.mp (List.mem_of_getElem? hi))
  rw [htasks]
  refine ⟨fun i t hi hlive => ?_, fun i j t u hi hj ht hu hlock => ?_⟩
  · obtain hold | rfl := hcases hi
    · exact hkept _ _ (h.entry i t hold hlive)
    · exact hkey
  · obtain hi' | rfl := hcases hi
    · obtain hj' | rfl := hcases hj
      · exact h.exclusive i j t u hi' hj' ht hu hlock
      · cases hu
    · cases ht

/-- A packet that owns its lock changes its phase. -/
theorem setPhase (h : Inv st) {phase : PacketPhase} (hi : st.tasks[i]? = some t)
    (hlive : t.live = true) (hfree : phase = .handling → st.isFree t.lock = true) :
    Inv (st.setPhase i t phase) := by
  have hcases : ∀ {j : ℕ} {u : PacketTask}, (st.tasks.set i { t with phase })[j]? = some u →
      (j ≠ i ∧ st.tasks[j]? = some u) ∨ j = i ∧ u = { t with phase } := by
    intro j u hj
    rw [List.getElem?_set] at hj
    split_ifs at hj with hij
    · exact .inr ⟨hij.symm, (Option.some.inj hj).symm⟩
    · exact .inl ⟨Ne.symm hij, hj⟩
  -- a task that holds the lock already would contradict that it is free
  have hholder : ∀ {j : ℕ} {u : PacketTask}, st.tasks[j]? = some u → u.phase = .handling →
      u.lock = t.lock → phase ≠ .handling := by
    intro j u hj hu hlock hphase
    have hall := List.all_eq_true.mp (hfree hphase) u (List.mem_of_getElem? hj)
    simp [hu, hlock] at hall
  refine ⟨fun j u hj hu => ?_, fun j k u v hj hk hu hv hlock => ?_⟩
  · obtain ⟨-, hold⟩ | ⟨rfl, rfl⟩ := hcases hj
    · exact h.entry j u hold hu
    · exact h.entry j t hi hlive
  · obtain ⟨-, hj'⟩ | ⟨rfl, rfl⟩ := hcases hj
    · obtain ⟨-, hk'⟩ | ⟨rfl, rfl⟩ := hcases hk
      · exact h.exclusive j k u v hj' hk' hu hv hlock
      · exact absurd hv (hholder hj' hu hlock)
    · obtain ⟨-, hk'⟩ | ⟨rfl, rfl⟩ := hcases hk
      · exact absurd hu (hholder hk' hv hlock.symm)
      · rfl

theorem reap (h : Inv st) : Inv st.reapIdleUdpKeyLocks where
  entry i t hi hlive := lookup_reap hi hlive (h.entry i t hi hlive)
  exclusive := h.exclusive

/-- **One step.** -/
theorem step {a : Action} (h : Inv st) (hs : st.step a = some st') : Inv st' := by
  obtain ⟨key, lock, st₁, hget, rfl⟩ | ⟨i, t, phase, hi, hlive, hfree, rfl⟩ | rfl := step_cases hs
  · have harrive := h.arrive key
    rwa [hget] at harrive
  · exact h.setPhase hi hlive hfree
  · exact h.reap

end Inv

/-- **Packets of one flow exclude each other.** In every run, all packets of one key that own a lock
own the same one, which is the one in the table, and at most one task of a key handles a packet. -/
theorem same_flow_exclusive (h : Reachable KeyLocks.step {} st) :
    (∀ (i j : ℕ) (t u : PacketTask), st.tasks[i]? = some t → st.tasks[j]? = some u →
      t.live = true → u.live = true → t.key = u.key →
        t.lock = u.lock ∧ st.table.lookup t.key = some t.lock) ∧
    ∀ (i j : ℕ) (t u : PacketTask), st.tasks[i]? = some t → st.tasks[j]? = some u →
      t.phase = .handling → u.phase = .handling → t.key = u.key → i = j := by
  have hinv : Inv st := h.invariant .new fun _ _ _ hst _ hs => hst.step hs
  have hsame : ∀ (i j : ℕ) (t u : PacketTask), st.tasks[i]? = some t → st.tasks[j]? = some u →
      t.live = true → u.live = true → t.key = u.key →
        t.lock = u.lock ∧ st.table.lookup t.key = some t.lock := by
    intro i j t u hi hj ht hu hkey
    have htable := hinv.entry i t hi ht
    have htable' := hinv.entry j u hj hu
    rw [← hkey, htable] at htable'
    exact ⟨Option.some.inj htable', htable⟩
  refine ⟨hsame, fun i j t u hi hj ht hu hkey => ?_⟩
  have hlock := (hsame i j t u hi hj (by simp [PacketTask.live, ht]) (by simp [PacketTask.live, hu])
    hkey).1
  exact hinv.exclusive i j t u hi hj ht hu hlock

/-- A flow of the loopback address. -/
def exampleKey : UdpSessionKey where
  kind := .tproxy
  clientAddr := .v4 ⟨127, 0, 0, 1⟩ 1000
  targetAddr := .v4 ⟨10, 0, 0, 1⟩ 53

/-- The first packet is handled while the second waits and the table is reaped; a third one comes
after the first two have ended and the entry has been removed, and gets a new lock. -/
theorem same_flow_exclusive_exampleKey :
    (∃ st, Reachable KeyLocks.step {} st ∧ st.tasks[0]? = some ⟨exampleKey, 0, .handling⟩ ∧
      st.tasks[1]? = some ⟨exampleKey, 0, .waiting⟩ ∧ st.table.lookup exampleKey = some 0) ∧
    ∃ st, Reachable KeyLocks.step {} st ∧ st.tasks[2]? = some ⟨exampleKey, 1, .fetched⟩ ∧
      st.table.lookup exampleKey = some 1 := by
  constructor
  · obtain ⟨st, hst, h0, h1⟩ : ∃ st, Reachable KeyLocks.step {} st ∧
        (st.tasks[0]? = some ⟨exampleKey, 0, .handling⟩ ∧
          st.tasks[1]? = some ⟨exampleKey, 0, .waiting⟩) :=
      exists_steps_of_run (l := [.arrive exampleKey, .spawn 0, .acquire 0, .arrive exampleKey,
        .spawn 1, .reap]) (fun _ _ _ => trivial) (by decide +kernel)
    exact ⟨st, hst, h0, h1, ((same_flow_exclusive hst).1 0 1 _ _ h0 h1 rfl rfl rfl).2⟩
  · obtain ⟨st, hst, h2⟩ : ∃ st, Reachable KeyLocks.step {} st ∧
        st.tasks[2]? = some ⟨exampleKey, 1, .fetched⟩ :=
      exists_steps_of_run (l := [.arrive exampleKey, .arrive exampleKey, .drop 0, .drop 1, .reap,
        .arrive exampleKey]) (fun _ _ _ => trivial) (by decide +kernel)
    exact ⟨st, hst, h2, ((same_flow_exclusive hst).1 2 2 _ _ h2 h2 rfl rfl rfl).2⟩

end KeyLocks

end XtpRs.Udp
