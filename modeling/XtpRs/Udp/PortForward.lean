import XtpRs.Udp.Accounting

/-!
# The target of a port-forward

A port-forward is configured with a remote address, and `UdpSessionSpec::for_port_forward` forces
its flows through SOCKS5. Its packets take the same path as those of the TPROXY listener, through
the sniffers: a sniffer that finds a host name in a payload attaches it to the specification of
the session, and `UdpSession::send_payload` then addresses the packets of the session to that name
instead of the configured remote address.

## Main definitions

* `UdpSessionSpec.Unsniffed`: a port-forward specification without a host.
* `UdpRuntime.SpecInv`, `UdpLoop.SpecInv`: every specification in use satisfies a property.

## Main results

* `UdpLoop.portForward_target`: while no sniffer matches a payload of a port-forward, every packet
  emitted for a port-forward is addressed to its remote.
* `UdpLoop.portForward_sniffed`: a matched payload is sent elsewhere.
-/

namespace XtpRs.Udp

open Lib Sniff

/-- A port-forward goes through SOCKS5 and has no sniffed host. -/
def UdpSessionSpec.Unsniffed (spec : UdpSessionSpec) : Prop :=
  ∀ listenAddr, spec.key.kind = .portForward listenAddr →
    spec.routing = .forceSocks5 ∧ spec.sniffedHost = none

theorem ClientPacket.unsniffed_spec (packet : ClientPacket) : packet.spec.Unsniffed := by
  cases packet with
  | tproxy clientAddr origDst =>
    intro listenAddr h
    cases h
  | portForward listenAddr clientAddr remote listenSock => exact fun _ _ => ⟨rfl, rfl⟩

/-! ### Specifications in the runtime -/

namespace UdpRuntime

variable {Q : UdpSessionSpec → Prop} {rt rt' : UdpRuntime}

/-- The specifications of calls, creations and sessions satisfy `Q`, and a session that is forced
through SOCKS5 is so. -/
structure SpecInv (Q : UdpSessionSpec → Prop) (rt : UdpRuntime) : Prop where
  call : ∀ i, Q (rt.calls i).spec
  creation : ∀ c, Q (rt.creations c).spec
  session : ∀ s, Q (rt.heap s).spec
  outbound : ∀ s, (rt.heap s).spec.routing = .forceSocks5 → (rt.heap s).outbound = .socks5

namespace SpecInv

/-- The invariant after a step that keeps specifications and outbounds. -/
theorem of_frame (h : SpecInv Q rt) (hcalls : ∀ i, (rt'.calls i).spec = (rt.calls i).spec)
    (hcreations : ∀ c, (rt'.creations c).spec = (rt.creations c).spec)
    (hheap : ∀ s, (rt'.heap s).spec = (rt.heap s).spec ∧
      (rt'.heap s).outbound = (rt.heap s).outbound) : SpecInv Q rt' where
  call i := by
    rw [hcalls]
    exact h.call i
  creation c := by
    rw [hcreations]
    exact h.creation c
  session s := by
    rw [(hheap s).1]
    exact h.session s
  outbound s hs := by
    rw [(hheap s).1] at hs
    rw [(hheap s).2]
    exact h.outbound s hs

theorem setPc (h : SpecInv Q rt) (i : ℕ) (pc : CallPc) : SpecInv Q (rt.setPc i pc) :=
  h.of_frame (fun j => spec_setPc rt i j pc) (fun _ => rfl) fun _ => ⟨rfl, rfl⟩

theorem notifyWaiters (h : SpecInv Q rt) (n : NotifyId) : SpecInv Q (rt.notifyWaiters n) :=
  h.of_frame (fun _ => Call.spec_wake n _) (fun _ => rfl) fun _ => ⟨rfl, rfl⟩

theorem setTask (h : SpecInv Q rt) (c : ℕ) (task : CreateTask) : SpecInv Q (rt.setTask c task) := by
  refine h.of_frame (fun _ => rfl) (fun e => ?_) fun _ => ⟨rfl, rfl⟩
  rcases eq_or_ne e c with rfl | hec
  · simp [UdpRuntime.setTask]
  · simp [UdpRuntime.setTask, hec]

/-- One session is replaced by one with the same specification and outbound. -/
theorem update (h : SpecInv Q rt) {s : SessionId} {x : UdpSession}
    (hspec : x.spec = (rt.heap s).spec) (hout : x.outbound = (rt.heap s).outbound) :
    SpecInv Q { rt with heap := Function.update rt.heap s x } := by
  refine h.of_frame (fun _ => rfl) (fun _ => rfl) fun t => ?_
  rcases eq_or_ne t s with rfl | hts
  · simp [hspec, hout]
  · simp [hts]

theorem cancel (h : SpecInv Q rt) (s : SessionId) : SpecInv Q (rt.cancel s) := h.update rfl rfl

theorem setRecv (h : SpecInv Q rt) (s : SessionId) (task : RecvTask) :
    SpecInv Q (rt.setRecv s task) := h.update rfl rfl

/-- **Specifications of the runtime.** They all come from calls. -/
theorem step {a : Action} (h : SpecInv Q rt)
    (hcall : ∀ spec listener, a = .call spec listener → Q spec) (hs : rt.step a = some rt') :
    SpecInv Q rt' := by
  cases Effect.of_step hs with
  | call spec listener =>
    refine ⟨fun i => ?_, h.creation, h.session, h.outbound⟩
    rcases eq_or_ne i rt.numCalls with rfl | hi
    · simpa using hcall spec listener rfl
    · simpa [hi] using h.call i
  | check i pc | refuse i | reuse i | wait i | retry i | joined i | joinFailed i | abort i =>
    exact h.setPc _ _
  | reserve i =>
    have hpc : SpecInv Q (rt.setPc i (.joining rt.numNotifies rt.numCreations)) := h.setPc _ _
    refine ⟨hpc.call, fun c => ?_, h.session, h.outbound⟩
    rcases eq_or_ne c rt.numCreations with rfl | hc
    · simpa using h.call i
    · simpa [hc] using h.creation c
  | publishCancelled i n c s =>
    have hmap : SpecInv Q (rt.removeEntry (rt.calls i).spec.key) := { h with }
    exact ((hmap.notifyWaiters n).cancel s).setPc _ _
  | publishError i n c e =>
    have hmap : SpecInv Q (rt.removeEntry (rt.calls i).spec.key) := { h with }
    exact (hmap.notifyWaiters n).setPc _ _
  | publishReady i n c s =>
    have hmap : SpecInv Q (rt.insertEntry (rt.calls i).spec.key (.ready s)) := { h with }
    exact (hmap.notifyWaiters n).setPc _ _
  | remove i n =>
    have hmap : SpecInv Q (rt.removeEntry (rt.calls i).spec.key) := { h with }
    exact hmap.setPc _ _
  | notify i n => exact (h.notifyWaiters n).setPc _ _
  | abortRecv i s => exact (h.setRecv s _).setPc _ _
  | connectFailed c outcome task => exact h.setTask c task
  | connected c outbound now hc hout =>
    have htask := h.setTask c (.awaitingReady rt.numSessions)
    refine ⟨htask.call, htask.creation, fun s => ?_, fun s hforce => ?_⟩
    · rcases eq_or_ne s rt.numSessions with rfl | hne
      · simpa using h.creation c
      · simpa [hne] using h.session s
    · rcases eq_or_ne s rt.numSessions with rfl | hne
      · simp only [Function.update_self] at hforce ⊢
        cases outbound with
        | direct => exact absurd ⟨hforce, rfl⟩ hout
        | socks5 => rfl
      · simp only [Function.update_of_ne hne] at hforce ⊢
        exact h.outbound s hforce
  | ready c s => exact h.setTask c _
  | recvStart s | recvFinish s => exact h.setRecv s _
  | recvExit s => exact (h.setRecv s _).cancel s
  | recvRemove s => exact { h.setRecv s .finished with }
  | touch s now => exact h.update rfl rfl
  | gcSnapshot | gcCheck | gcDone | shutdown | reapJoin | shutdownReturn => exact { h with }
  | gcRemove g now expired =>
    have hr := removeExpired_spec now expired rt
    refine h.of_frame (fun i => ?_) (fun c => ?_) fun s => ?_
    · change ((removeExpired now expired rt).1.calls i).spec = _
      rw [hr.eq]
    · change ((removeExpired now expired rt).1.creations c).spec = _
      rw [hr.eq]
    · change ((removeExpired now expired rt).1.heap s).spec = _ ∧
        ((removeExpired now expired rt).1.heap s).outbound = _
      rw [hr.heap]
      split_ifs <;> exact ⟨rfl, rfl⟩
  | gcAbort g s => exact { h.setRecv s _ with }
  | reapAbort d ok s => exact { h.setRecv s _ with }
  | shutdownDrain d =>
    obtain ⟨calls, heq, hwoken, -⟩ := rt.drain_eq d
    rw [heq]
    refine h.of_frame (fun i => (hwoken i).spec_eq) (fun _ => rfl) fun s => ?_
    simp only
    split_ifs <;> exact ⟨rfl, rfl⟩

end SpecInv

end UdpRuntime

/-! ### Specifications in the loop -/

variable {S : Type}

/-- The specifications a task is about to use satisfy `Q`. -/
def TaskPc.ForallSpec (Q : UdpSessionSpec → Prop) : TaskPc S → Prop
  | insert p => Q p.spec
  | forward calls _ | await _ _ calls _ | send _ _ calls _ => ∀ c ∈ calls, Q c.1
  | _ => True

namespace UdpLoop

variable {Q : UdpSessionSpec → Prop} {cfg : UdpLoopConfig S} {st st' : UdpLoop S} {t : ℕ}

/-- Every specification in use satisfies `Q`. -/
structure SpecInv (Q : UdpSessionSpec → Prop) (st : UdpLoop S) : Prop where
  rt : UdpRuntime.SpecInv Q st.rt
  pending : ∀ k p, st.pending.lookup k = some p → Q p.spec
  task : ∀ t, Q (st.tasks t).spec
  pc : ∀ t, (st.tasks t).pc.ForallSpec Q

namespace SpecInv

theorem setTaskPc (h : SpecInv Q st) {pc : TaskPc S} (hpc : pc.ForallSpec Q) :
    SpecInv Q (st.setTaskPc t pc) := by
  refine ⟨h.rt, h.pending, fun u => ?_, fun u => ?_⟩
  · rw [spec_setTaskPc]
    exact h.task u
  · rw [pc_setTaskPc]
    split_ifs
    · exact hpc
    · exact h.pc u

theorem spawn (h : SpecInv Q st) {task : Task S} (hspec : Q task.spec)
    (hpc : task.pc.ForallSpec Q) : SpecInv Q (st.spawn task) := by
  refine ⟨h.rt, h.pending, fun u => ?_, fun u => ?_⟩
  · rcases eq_or_ne u st.numTasks with rfl | hu
    · simpa [UdpLoop.spawn] using hspec
    · simpa [UdpLoop.spawn, hu] using h.task u
  · rcases eq_or_ne u st.numTasks with rfl | hu
    · simpa [UdpLoop.spawn] using hpc
    · simpa [UdpLoop.spawn, hu] using h.pc u

theorem erase (h : SpecInv Q st) (k : UdpSessionKey) :
    SpecInv Q { st with pending := st.pending.erase k } := by
  refine { h with pending := fun k' p hk' => ?_ }
  simp only at hk'
  rw [HashMap.lookup_erase_eq_ite] at hk'
  split_ifs at hk'
  exact h.pending k' p hk'

theorem setRt (h : SpecInv Q st) {rt : UdpRuntime} (hrt : UdpRuntime.SpecInv Q rt) :
    SpecInv Q { st with rt } := { h with rt := hrt }

/-- The specifications of a decision are those of the task and its entry, with a host where a
sniffer has matched. -/
theorem decisionPc (h : SpecInv Q st) (hloop : LoopInv st) {now : ℕ} {direct : Bool}
    (hmatch : ∀ host, SniffMatch cfg.sniffers (st.pending.lookup (st.tasks t).spec.key)
      (st.tasks t).datagram now host → ∀ spec, Q spec → spec.key = (st.tasks t).spec.key →
      Q { spec with sniffedHost := some host }) :
    (UdpLoop.decisionPc (st.decision cfg t now direct)).ForallSpec Q := by
  have hall : (st.decision cfg t now direct).ForallSpec
      fun spec => Q spec ∧ spec.key = (st.tasks t).spec.key := by
    refine handleUdpClientPayload_forallSpec ⟨h.task t, rfl⟩ (fun p hp => ?_) ?_
    · exact ⟨h.pending _ p hp, hloop.pending_key _ p hp⟩
    · exact fun host hhost spec hspec => ⟨hmatch host hhost spec hspec.1 hspec.2, hspec.2⟩
  cases hdecision : st.decision cfg t now direct with
  | forward calls =>
    rw [hdecision] at hall
    exact fun c hc => (hall c hc).1
  | store p =>
    rw [hdecision] at hall
    exact hall.1

/-- **Specifications of the loop.** They all come from packets and from hosts attached on a
match. -/
theorem step {a : LoopAction} (h : SpecInv Q st) (hloop : LoopInv st) (hdefault : Q default)
    (hpacket : ∀ packet : ClientPacket, Q packet.spec)
    (hmatch : ∀ t now direct, a = .advance t now direct → (st.tasks t).pc = .takePending →
      ∀ host, SniffMatch cfg.sniffers (st.pending.lookup (st.tasks t).spec.key)
        (st.tasks t).datagram now host → ∀ spec, Q spec → spec.key = (st.tasks t).spec.key →
        Q { spec with sniffedHost := some host })
    (hs : st.step cfg a = some st') : SpecInv Q st' := by
  cases Effect.of_step hs with
  | arrive packet payload =>
    have hspawn : SpecInv Q (st.spawn ⟨packet.spec, ⟨st.numTasks, payload⟩, false, .locking⟩) :=
      h.spawn (hpacket packet) trivial
    exact { hspawn with }
  | reapStart now => exact h.spawn hdefault trivial
  | lock | closed | opened | hit | miss | enforceDone | pick | reapEnd | reapSkip =>
    exact h.setTaskPc trivial
  | finish t now direct keys ht =>
    refine h.setTaskPc ?_
    split_ifs <;> trivial
  | readyHit t now direct s ht =>
    have hpc : SpecInv Q (st.setTaskPc t (.send s (st.tasks t).datagram [] [])) :=
      h.setTaskPc (by simp [TaskPc.ForallSpec])
    exact { hpc.erase (st.tasks t).spec.key with }
  | take t now direct ht =>
    have hpc : SpecInv Q (st.setTaskPc t (UdpLoop.decisionPc (st.decision cfg t now direct))) :=
      h.setTaskPc (h.decisionPc hloop (hmatch t now direct rfl ht))
    exact { hpc.erase (st.tasks t).spec.key with }
  | insert t now direct p ht =>
    have hp : Q p.spec := by
      have hpc := h.pc t
      rw [ht] at hpc
      exact hpc
    have hpc : SpecInv Q (st.setTaskPc t (.enforce none)) := h.setTaskPc trivial
    refine { hpc with pending := fun k q hk => ?_ }
    simp only at hk
    rw [HashMap.lookup_insert_eq_ite] at hk
    split_ifs at hk
    · cases hk
      exact hp
    · exact h.pending k q hk
  | evict t now direct k ht =>
    have hpc : SpecInv Q (st.setTaskPc t (.enforce none)) := h.setTaskPc trivial
    exact { hpc.erase k with }
  | call t now direct spec d calls keys rt ht hrt =>
    have hcalls : ∀ c ∈ (spec, d) :: calls, Q c.1 := by
      have hpc := h.pc t
      rw [ht] at hpc
      exact hpc
    have hpc : SpecInv Q (st.setTaskPc t (.await st.rt.numCalls d calls keys)) :=
      h.setTaskPc fun c hc => hcalls c (List.mem_cons_of_mem _ hc)
    have hrt' : UdpRuntime.SpecInv Q rt := by
      refine h.rt.step (fun spec' listener ha => ?_) hrt
      cases ha
      exact hcalls _ List.mem_cons_self
    exact { hpc.setRt hrt' with }
  | gotSession t now direct i s d calls keys ht hi | gotError t now direct i e d calls keys ht hi =>
    have hpc := h.pc t
    rw [ht] at hpc
    exact h.setTaskPc hpc
  | send t now direct s d calls keys rt ht hrt =>
    have hcalls := h.pc t
    rw [ht] at hcalls
    have hpc : SpecInv Q (st.setTaskPc t (.forward calls keys)) := h.setTaskPc hcalls
    have hrt' : UdpRuntime.SpecInv Q rt := h.rt.step (by simp) hrt
    exact { hpc.setRt hrt' with }
  | reapTake t now direct k keys p ht hp =>
    have hpc : SpecInv Q (st.setTaskPc t (.forward p.flush keys)) :=
      h.setTaskPc (PendingUdpSniff.forall_flush (h.pending k p hp))
    exact hpc.erase k
  | runtime a rt ha hrt =>
    refine h.setRt (h.rt.step (fun spec listener hcall => ?_) hrt)
    subst hcall
    cases ha

end SpecInv

theorem specInv_new (timeoutSecs : ℕ) (hdefault : Q default) :
    SpecInv Q (new timeoutSecs : UdpLoop S) where
  rt := ⟨fun _ => hdefault, fun _ => hdefault, fun _ => hdefault, fun _ h => by cases h⟩
  pending _ _ h := by cases h
  task _ := hdefault
  pc _ := trivial

/-! ### Packets of a port-forward -/

/-- The condition on a step that no sniffer matches a payload of a port-forward. -/
def NoSniffMatch (cfg : UdpLoopConfig S) (st : UdpLoop S) (a : LoopAction) : Prop :=
  ∀ t now direct listenAddr, a = .advance t now direct → (st.tasks t).pc = .takePending →
    (st.tasks t).spec.key.kind = .portForward listenAddr →
    ∀ host, ¬ SniffMatch cfg.sniffers (st.pending.lookup (st.tasks t).spec.key)
      (st.tasks t).datagram now host

/-- Every packet emitted for a port-forward is addressed to its target. -/
def Targeted (st : UdpLoop S) : Prop :=
  ∀ k e listenAddr, (k, e) ∈ st.sent → k.kind = .portForward listenAddr →
    ∃ payload, e = .socks5 (socks5UdpIpHeader k.targetAddr ++ payload)

theorem Targeted.step {a : LoopAction} (h : Targeted st)
    (hspec : SpecInv UdpSessionSpec.Unsniffed st) (hs : st.step cfg a = some st') :
    Targeted st' := by
  cases Effect.of_step hs with
  | send t now direct s d calls keys rt ht hrt =>
    intro k e listenAddr hmem hkind
    rcases List.mem_append.mp hmem with hold | hnew
    · exact h k e listenAddr hold hkind
    · obtain ⟨e', he', heq⟩ := List.mem_map.mp hnew
      obtain ⟨rfl, rfl⟩ := Prod.mk.inj heq
      obtain ⟨hrouting, hhost⟩ := hspec.rt.session s listenAddr hkind
      have hout := hspec.rt.outbound s hrouting
      exact ⟨d.payload, UdpSession.sendPayload_of_sniffedHost_none hhost hout
        (Option.mem_toList.mp he')⟩
  | _ => exact h

/-- **The target of a port-forward.** Take a run in which no sniffer matches a payload of a
port-forward. Then every packet emitted for a port-forward to `remote` is a SOCKS5 packet whose
header carries the address and the port of `remote`. -/
theorem portForward_target {timeoutSecs : ℕ}
    (h : Steps (step cfg) (NoSniffMatch cfg) (new timeoutSecs) st)
    (listenAddr clientAddr remote : SocketAddr) (listenSock : ℕ) (e : Emission)
    (he : ((UdpSessionSpec.forPortForward listenAddr clientAddr remote listenSock).key, e) ∈
      st.sent) : ∃ payload, e = .socks5 (socks5UdpIpHeader remote ++ payload) := by
  have hdefault : UdpSessionSpec.Unsniffed default := fun _ h => by cases h
  have hinv : LoopInv st ∧ SpecInv UdpSessionSpec.Unsniffed st ∧ Targeted st := by
    refine h.invariant (I := fun st => LoopInv st ∧ SpecInv UdpSessionSpec.Unsniffed st ∧
      Targeted st) ⟨loopInv_new timeoutSecs, specInv_new timeoutSecs hdefault, ?_⟩ ?_
    · intro k e listenAddr hmem
      cases hmem
    · rintro st a st' ⟨hloop, hspec, htarget⟩ ha hs
      refine ⟨hloop.step hs, ?_, htarget.step hspec hs⟩
      refine hspec.step hloop hdefault ClientPacket.unsniffed_spec ?_ hs
      -- a match only concerns flows that are no port-forwards
      intro t now direct hact ht host hmatch spec _ hkey listenAddr' hkind
      have hkind' : (st.tasks t).spec.key.kind = .portForward listenAddr' := hkey ▸ hkind
      exact absurd hmatch (ha t now direct listenAddr' hact ht hkind' host)
  exact hinv.2.2 _ e listenAddr he rfl

/-- A packet of a port-forward to `1.2.3.4:443`. -/
def forwardedPacket : ClientPacket :=
  .portForward (.v4 ⟨0, 0, 0, 0⟩ 8443) (.v4 ⟨10, 0, 0, 1⟩ 5000) (.v4 ⟨1, 2, 3, 4⟩ 443) 0

/-- The first packet of a flow is forwarded at once over a new session. -/
def firstForwarded (packet : ClientPacket) (payload : Bytes) : List LoopAction :=
  [.arrive packet payload, .lock 0, .advance 0 0 false, .advance 0 0 false, .advance 0 0 false,
    .advance 0 0 false, .runtime (.advance 0), .runtime (.advance 0),
    .runtime (.connect 0 (.connected .socks5 0)), .runtime (.recvStart 0), .runtime (.ready 0),
    .runtime (.advance 0), .runtime (.advance 0), .advance 0 0 false, .advance 0 0 false]

/-- A sniffer that gives every payload the same outcome. -/
def constantSniffer (outcome : UdpSniffOutcome) : UdpLoopConfig Unit where
  sniffers := ⟨[()], fun _ _ => (outcome, ())⟩
  quicSniffMode := .full
  quicSniffPendingTimeoutMs := 200

theorem portForward_target_notMatched :
    ∃ st, Steps (step (constantSniffer .notMatched)) (NoSniffMatch (constantSniffer .notMatched))
        (new 60) st ∧
      ∃ e payload, (forwardedPacket.spec.key, e) ∈ st.sent ∧
        e = .socks5 (socks5UdpIpHeader (.v4 ⟨1, 2, 3, 4⟩ 443) ++ payload) := by
  have hnever : ∀ (st : UdpLoop Unit) (a : LoopAction),
      NoSniffMatch (constantSniffer .notMatched) st a := by
    intro st a t now direct listenAddr _ _ _ host hmatch
    unfold SniffMatch at hmatch
    split at hmatch
    · cases hmatch
    · obtain ⟨-, -, protocol, hfeed⟩ := hmatch
      cases hfeed
  obtain ⟨st, hst, hsent⟩ : ∃ st, Steps (step (constantSniffer .notMatched))
      (NoSniffMatch (constantSniffer .notMatched)) (new 60) st ∧
      (forwardedPacket.spec.key, .socks5 [0, 0, 0, 1, 1, 2, 3, 4, 1, 187, 7]) ∈ st.sent :=
    exists_steps_of_run (l := firstForwarded forwardedPacket [7]) (fun a _ st => hnever st a)
      (by decide +kernel)
  obtain ⟨payload, hpayload⟩ := portForward_target hst (.v4 ⟨0, 0, 0, 0⟩ 8443)
    (.v4 ⟨10, 0, 0, 1⟩ 5000) (.v4 ⟨1, 2, 3, 4⟩ 443) 0 _ hsent
  exact ⟨st, hst, _, payload, hsent, hpayload⟩

/-- A sniffer finds the name `a.b` in the payload: the packet of the port-forward is addressed to
that name. -/
theorem portForward_sniffed :
    ∃ st, Reachable (step (constantSniffer (.matched .quicSni [97, 46, 98]))) (new 60) st ∧
      ∃ e, (forwardedPacket.spec.key, e) ∈ st.sent ∧
        ¬ ∃ payload, e = .socks5 (socks5UdpIpHeader (.v4 ⟨1, 2, 3, 4⟩ 443) ++ payload) := by
  obtain ⟨st, hst, hsent⟩ : ∃ st,
      Reachable (step (constantSniffer (.matched .quicSni [97, 46, 98]))) (new 60) st ∧
      (forwardedPacket.spec.key, .socks5 [0, 0, 0, 3, 3, 97, 46, 98, 1, 187, 7]) ∈ st.sent :=
    exists_steps_of_run (l := firstForwarded forwardedPacket [7]) (fun _ _ _ => trivial)
      (by decide +kernel)
  refine ⟨st, hst, _, hsent, ?_⟩
  rintro ⟨payload, hpayload⟩
  have hprefix : socks5UdpIpHeader (.v4 ⟨1, 2, 3, 4⟩ 443) <+:
      ([0, 0, 0, 3, 3, 97, 46, 98, 1, 187, 7] : Bytes) :=
    ⟨payload, (Emission.socks5.inj hpayload).symm⟩
  exact absurd hprefix (by decide)

end UdpLoop

end XtpRs.Udp
