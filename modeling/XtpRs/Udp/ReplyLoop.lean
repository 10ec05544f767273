import XtpRs.Lib.Run
import XtpRs.Net.Socks5UdpPacket
import XtpRs.Tcp.RelayDeadline
import XtpRs.Udp.Session

/-!
# The way back of a UDP session

`run_direct_udp_recv_loop` and `run_socks5_udp_recv_loop` of `src/udp/mod.rs` wait for what comes
next: the cancellation of the session, in the SOCKS5 loop a deadline that every datagram of the
relay sets back, or a datagram. The `select!` is biased, so the cancellation is looked at first and
the datagram last. What arrives is handed to the client by `send_reply`, whose failures are logged
and change nothing.

A session is also touched by the payloads of its client, and cancelled by a pass of
`cleanup_expired_sessions` that finds it unused, or by a shutdown. A history is a list of all these
in the order in which they happen; what the receive loop does with the next poll is a function of
the history. The counters of the loop, which only the log reads, are left out.

## Main definitions

* `connectedUdpRecvResult`, `makeIdleDeadline`, `resetIdleDeadline`, `UdpSession.sendReply`.
* `ReplyLoop.pollDirect`, `ReplyLoop.pollSocks5`: one poll of the loops.
* `ReplyLoop.step`: the loop with the clients, the cleanup and the shutdown.

## Main results

* `ReplyLoop.replies_exact`: what the client gets in a run.
* `ReplyLoop.loop_end`: when and why the loop ends.
-/

namespace XtpRs.Udp

open Lib
open Tcp (Duration Instant)

/-- What `recv` on a connected socket returns. -/
inductive RecvResult
  | data (packet : Bytes)
  | emsgsize
  | failed (error : String)
  deriving DecidableEq, Repr

/-- `connected_udp_recv_result`: the datagram, nothing when there is none to handle, or an error. -/
def connectedUdpRecvResult (r : RecvResult) (direction : String) : Except String (Option Bytes) :=
  match r with
  | .data [] => .ok none
  | .data packet => .ok (some packet)
  | .emsgsize => .ok none
  | .failed error => .error s!"{direction} UDP recv failed: {error}"

/-- Thirty years. -/
def farFuture : Duration := .fromSecs (30 * 365 * 24 * 3600)

/-- The deadline of `tokio::time::sleep`: the clock's reading plus a number of seconds, or thirty
years later when that does not fit. That sum is made only then, and panics when it does not fit
either. -/
def deadlineAfter (now : Instant) (secs : UInt64) : Option Instant :=
  now.checkedAdd (.fromSecs secs) <|> now.checkedAdd farFuture

/-- `make_idle_deadline`. -/
def makeIdleDeadline (now : Instant) (idleTimeoutSecs : UInt64) : Option Instant :=
  if 0 < idleTimeoutSecs then deadlineAfter now idleTimeoutSecs else now.checkedAdd farFuture

/-- `reset_idle_deadline`. The argument of `unwrap_or` is computed in any case, so `+` panics when
thirty years do not fit, whatever the timeout. -/
def resetIdleDeadline (deadline now : Instant) (idleTimeoutSecs : UInt64) : Option Instant :=
  if 0 < idleTimeoutSecs then
    (now.checkedAdd farFuture).map fun far =>
      (now.checkedAdd (.fromSecs idleTimeoutSecs)).getD far
  else some deadline

/-- A deadline that can be set back is the one that a new sleep would have. -/
theorem deadlineAfter_of_reset {deadline now next : Instant} {idleTimeoutSecs : UInt64}
    (hpos : 0 < idleTimeoutSecs)
    (h : resetIdleDeadline deadline now idleTimeoutSecs = some next) :
    deadlineAfter now idleTimeoutSecs = some next := by
  rw [resetIdleDeadline, if_pos hpos, Option.map_eq_some_iff] at h
  obtain ⟨far, hfar, rfl⟩ := h
  rw [deadlineAfter, hfar]
  cases now.checkedAdd (.fromSecs idleTimeoutSecs) <;> rfl

/-- A datagram to the client: over a socket that is bound to the address it shall come from, or over
the listening socket of a port forward. -/
inductive Reply
  | spoofed (src dst : SocketAddr) (payload : Bytes)
  | listen (sock : ℕ) (dst : SocketAddr) (payload : Bytes)
  deriving DecidableEq, Repr

namespace UdpSession

/-- `UdpSession::touch`. -/
def touch (s : UdpSession) (nowSecs : ℕ) : UdpSession := { s with lastSeenSecs := nowSecs }

/-- `UdpSession::send_reply`: the datagram that it tries to send. -/
def sendReply (s : UdpSession) (remoteSrc : SocketAddr) (payload : Bytes) : Reply :=
  match s.spec.replyPath with
  | .tproxy => .spoofed remoteSrc s.key.clientAddr payload
  | .portForward sock => .listen sock s.key.clientAddr payload

/-- The source that the SOCKS5 loop gives to a reply: a transparent client sees the address it has
sent to, whatever the relay says. -/
def clientVisibleSrc (s : UdpSession) (remoteSrc : SocketAddr) : SocketAddr :=
  match s.spec.replyPath with
  | .tproxy => s.key.targetAddr
  | .portForward _ => remoteSrc

end UdpSession

/-- A poll of the receive loop: the clock of the runtime, what the socket returns if it is ready,
and the readings of both clocks when the datagram is handled. -/
structure Wake where
  now : Instant
  recv : Option RecvResult := none
  resetAt : Instant := now
  nowSecs : ℕ := 0

/-- What a poll of the receive loop comes to; it goes on when it is pending. -/
inductive LoopOutcome
  | pending
  | cancelled
  | idleTimeout
  | failed (error : String)
  | panicked
  deriving DecidableEq

/-- The receive loop of a session. The deadline is that of the SOCKS5 loop. -/
structure ReplyLoop where
  session : UdpSession
  idleDeadline : Instant
  replies : List Reply

/-- What happens to a session. -/
inductive LifeAction
  /-- Its receive loop is polled. -/
  | wake (w : Wake)
  /-- `send_udp_payload` sends a payload of the client. -/
  | clientPayload (nowSecs : ℕ)
  /-- It is cancelled by a shutdown. -/
  | cancel
  /-- `cleanup_expired_sessions` looks at it. -/
  | cleanup (nowSecs : ℕ)

namespace ReplyLoop

/-- The loop before its first poll; `none` when the deadline cannot be computed. -/
def start (session : UdpSession) (now : Instant) (idleTimeoutSecs : UInt64) : Option ReplyLoop :=
  (makeIdleDeadline now idleTimeoutSecs).map fun idleDeadline =>
    { session, idleDeadline, replies := [] }

def touch (st : ReplyLoop) (nowSecs : ℕ) : ReplyLoop :=
  { st with session := st.session.touch nowSecs }

def reply (st : ReplyLoop) (r : Reply) : ReplyLoop :=
  { st with replies := st.replies ++ [r] }

def cancel (st : ReplyLoop) : ReplyLoop :=
  { st with session := { st.session with cancelled := true } }

/-- `run_direct_udp_recv_loop`, one poll. -/
def pollDirect (st : ReplyLoop) (w : Wake) : LoopOutcome × ReplyLoop :=
  if st.session.cancelled then (.cancelled, st)
  else
    match w.recv with
    | none => (.pending, st)
    | some r =>
      match connectedUdpRecvResult r "direct" with
      | .error error => (.failed error, st)
      | .ok none => (.pending, st)
      | .ok (some payload) =>
        let st := st.touch w.nowSecs
        (.pending, st.reply (st.session.sendReply st.session.key.targetAddr payload))

/-- `run_socks5_udp_recv_loop`, one poll. -/
def pollSocks5 (idleTimeoutSecs : UInt64) (st : ReplyLoop) (w : Wake) : LoopOutcome × ReplyLoop :=
  if st.session.cancelled then (.cancelled, st)
  else if 0 < idleTimeoutSecs ∧ st.idleDeadline.nanos ≤ w.now.nanos then (.idleTimeout, st)
  else
    match w.recv with
    | none => (.pending, st)
    | some r =>
      match connectedUdpRecvResult r "socks5" with
      | .error error => (.failed error, st)
      | .ok none => (.pending, st)
      | .ok (some packet) =>
        let st := st.touch w.nowSecs
        match resetIdleDeadline st.idleDeadline w.resetAt idleTimeoutSecs with
        | none => (.panicked, st)
        | some idleDeadline =>
          let st := { st with idleDeadline }
          match (parseSocks5UdpPacketWithFallbackSrc packet st.session.key.targetAddr).run with
          | none => (.panicked, st)
          -- an invalid packet is skipped, after the session was touched and the deadline set back
          | some (.error _) => (.pending, st)
          | some (.ok (remoteSrc, payload)) =>
            let src := st.session.clientVisibleSrc remoteSrc
            (.pending, st.reply (st.session.sendReply src payload))

/-- `run_udp_session_recv_loop`, one poll. -/
def poll (idleTimeoutSecs : UInt64) (st : ReplyLoop) (w : Wake) : LoopOutcome × ReplyLoop :=
  match st.session.outbound with
  | .direct => st.pollDirect w
  | .socks5 => st.pollSocks5 idleTimeoutSecs w

/-- What happens while the loop goes on. -/
def step (timeoutSecs : ℕ) (idleTimeoutSecs : UInt64) (st : ReplyLoop) :
    LifeAction → Option ReplyLoop
  | .wake w =>
    match st.poll idleTimeoutSecs w with
    | (.pending, st) => some st
    | _ => none
  | .clientPayload nowSecs => some (st.touch nowSecs)
  | .cancel => some st.cancel
  | .cleanup nowSecs =>
    some (if timeoutSecs ≤ nowSecs - st.session.lastSeenSecs then st.cancel else st)

end ReplyLoop

/-! ### What a history says -/

/-- The datagram of a poll; an empty one counts as none. -/
def Wake.datagram (w : Wake) : Option Bytes :=
  match w.recv with
  | some (.data (b :: rest)) => some (b :: rest)
  | _ => none

namespace LifeAction

/-- The datagram that arrives. -/
def datagram : LifeAction → Option Bytes
  | wake w => w.datagram
  | _ => none

/-- When a datagram of the remote side arrives, on the clock of the deadline. -/
def replyAt : LifeAction → Option Instant
  | wake w => w.datagram.map fun _ => w.resetAt
  | _ => none

/-- When the session is used in either direction, on the clock of the cleanup. -/
def usedAt : LifeAction → Option ℕ
  | wake w => w.datagram.map fun _ => w.nowSecs
  | clientPayload nowSecs => some nowSecs
  | _ => none

end LifeAction

/-- The last datagram of the remote side, or the start. -/
def lastReply (start : Instant) (acts : List LifeAction) : Instant :=
  acts.foldl (fun t a => a.replyAt.getD t) start

/-- The last use in either direction, or the creation. -/
def lastUse (created : ℕ) (acts : List LifeAction) : ℕ :=
  acts.foldl (fun t a => a.usedAt.getD t) created

/-- The session has been cancelled: by a shutdown, or by a pass of the cleanup that came when the
session had not been used for the timeout. -/
def Retired (timeoutSecs created : ℕ) (acts : List LifeAction) : Prop :=
  .cancel ∈ acts ∨ ∃ before nowSecs after, acts = before ++ .cleanup nowSecs :: after ∧
    timeoutSecs ≤ nowSecs - lastUse created before

namespace UdpSession

/-- The payload in a datagram of the remote side. -/
def payloadOf (s : UdpSession) (packet : Bytes) : Option Bytes :=
  match s.outbound with
  | .direct => some packet
  | .socks5 =>
    match (parseSocks5UdpPacketWithFallbackSrc packet s.key.targetAddr).run with
    | some (.ok (_, payload)) => some payload
    | _ => none

/-- A payload on its way to the client. -/
def deliver (s : UdpSession) (payload : Bytes) : Reply :=
  s.sendReply s.key.targetAddr payload

theorem sendReply_clientVisibleSrc (s : UdpSession) (remoteSrc : SocketAddr) (payload : Bytes) :
    s.sendReply (s.clientVisibleSrc remoteSrc) payload = s.deliver payload := by
  unfold deliver sendReply clientVisibleSrc
  cases s.spec.replyPath <;> rfl

/-- A session that differs only in what a run changes. -/
structure SameFlow (s t : UdpSession) : Prop where
  spec : t.spec = s.spec
  outbound : t.outbound = s.outbound

namespace SameFlow

variable {s t : UdpSession}

theorem key (h : SameFlow s t) : t.key = s.key := congrArg UdpSessionSpec.key h.spec

theorem deliver (h : SameFlow s t) : t.deliver = s.deliver := by
  funext payload
  rw [UdpSession.deliver, UdpSession.deliver, sendReply, sendReply, h.spec, h.key]

theorem payloadOf (h : SameFlow s t) : t.payloadOf = s.payloadOf := by
  funext packet
  rw [UdpSession.payloadOf, UdpSession.payloadOf, h.outbound, h.key]

end SameFlow

end UdpSession

/-- The replies of a history. -/
def repliesOf (s : UdpSession) (acts : List LifeAction) : List Reply :=
  (acts.filterMap fun a => a.datagram.bind s.payloadOf).map s.deliver

/-- The replies of one more datagram. -/
def replyTo (s : UdpSession) (packet : Bytes) : List Reply :=
  (s.payloadOf packet).toList.map s.deliver

theorem repliesOf_concat (s : UdpSession) (acts : List LifeAction) (a : LifeAction) :
    repliesOf s (acts ++ [a]) = repliesOf s acts ++ a.datagram.toList.flatMap (replyTo s) := by
  unfold repliesOf replyTo
  rw [List.filterMap_append, List.map_append]
  cases ha : a.datagram with
  | none => simp [ha]
  | some packet => cases hp : s.payloadOf packet <;> simp [ha, hp]

theorem lastReply_concat (start : Instant) (acts : List LifeAction) (a : LifeAction) :
    lastReply start (acts ++ [a]) = a.replyAt.getD (lastReply start acts) := by
  rw [lastReply, List.foldl_append]
  rfl

theorem lastUse_concat (created : ℕ) (acts : List LifeAction) (a : LifeAction) :
    lastUse created (acts ++ [a]) = a.usedAt.getD (lastUse created acts) := by
  rw [lastUse, List.foldl_append]
  rfl

variable {timeoutSecs created : ℕ} {acts : List LifeAction}

theorem retired_concat (a : LifeAction) :
    Retired timeoutSecs created (acts ++ [a]) ↔ Retired timeoutSecs created acts ∨ a = .cancel ∨
      ∃ nowSecs, a = .cleanup nowSecs ∧ timeoutSecs ≤ nowSecs - lastUse created acts := by
  constructor
  · rintro (hcancel | ⟨before, nowSecs, after, heq, hunused⟩)
    · obtain hbefore | rfl := by simpa using hcancel
      · exact .inl (.inl hbefore)
      · exact .inr (.inl rfl)
    · cases after using List.reverseRecOn with
      | nil =>
        obtain ⟨rfl, rfl⟩ := List.append_inj' heq rfl |>.imp id (List.cons.inj · |>.1)
        exact .inr (.inr ⟨nowSecs, rfl, hunused⟩)
      | append_singleton after b _ =>
        have heq' : acts ++ [a] = (before ++ .cleanup nowSecs :: after) ++ [b] := by
          rw [heq, List.append_assoc]
          rfl
        obtain ⟨rfl, -⟩ := List.append_inj' heq' rfl
        exact .inl (.inr ⟨before, nowSecs, after, rfl, hunused⟩)
  · rintro ((hcancel | ⟨before, nowSecs, after, rfl, hunused⟩) | rfl | ⟨nowSecs, rfl, hunused⟩)
    · exact .inl (List.mem_append_left _ hcancel)
    · exact .inr ⟨before, nowSecs, after ++ [a], by simp, hunused⟩
    · exact .inl (List.mem_append_right _ (List.mem_singleton_self _))
    · exact .inr ⟨acts, nowSecs, [], rfl, hunused⟩

namespace ReplyLoop

variable {idleTimeoutSecs : UInt64} {st st' : ReplyLoop} {w : Wake}

/-! ### One poll -/

/-- The deadline after a datagram. The direct loop has none. -/
def deadlineOfReply (idleTimeoutSecs : UInt64) (st : ReplyLoop) (w : Wake) : Option Instant :=
  match st.session.outbound with
  | .direct => some st.idleDeadline
  | .socks5 => resetIdleDeadline st.idleDeadline w.resetAt idleTimeoutSecs

/-- The watchdog of the SOCKS5 loop ends the loop in a poll. -/
def Idle (idleTimeoutSecs : UInt64) (st : ReplyLoop) (w : Wake) : Prop :=
  st.session.outbound = .socks5 ∧ 0 < idleTimeoutSecs ∧ st.idleDeadline.nanos ≤ w.now.nanos

instance : Decidable (Idle idleTimeoutSecs st w) :=
  inferInstanceAs (Decidable (_ ∧ _ ∧ _))

/-- The loop after a datagram. -/
def handled (st : ReplyLoop) (w : Wake) (idleDeadline : Instant) (packet : Bytes) : ReplyLoop where
  session := st.session.touch w.nowSecs
  idleDeadline
  replies := st.replies ++ replyTo st.session packet

/-- The name of a loop in its errors. -/
def direction : UdpOutbound → String
  | .direct => "direct"
  | .socks5 => "socks5"

theorem replyTo_direct {s : UdpSession} (h : s.outbound = .direct) (packet : Bytes) :
    replyTo s packet = [s.deliver packet] := by
  rw [replyTo, UdpSession.payloadOf, h]
  rfl

/-- What a packet of the relay is to a session: it is skipped, or its payload is delivered. -/
theorem replyTo_socks5 {s : UdpSession} (h : s.outbound = .socks5) (packet : Bytes) :
    (∃ e, (parseSocks5UdpPacketWithFallbackSrc packet s.key.targetAddr).run = some (.error e) ∧
      replyTo s packet = []) ∨
    ∃ src payload, (parseSocks5UdpPacketWithFallbackSrc packet s.key.targetAddr).run =
        some (.ok (src, payload)) ∧ replyTo s packet = [s.deliver payload] := by
  obtain ⟨e, he⟩ | ⟨src, payload, hok, -⟩ := parse_suffix packet s.key.targetAddr
  · have hrun : (parseSocks5UdpPacketWithFallbackSrc packet s.key.targetAddr).run =
        some (.error e) := by rw [he]; rfl
    exact .inl ⟨e, hrun, by simp [replyTo, UdpSession.payloadOf, h, hrun]⟩
  · have hrun : (parseSocks5UdpPacketWithFallbackSrc packet s.key.targetAddr).run =
        some (.ok (src, payload)) := by rw [hok]; rfl
    exact .inr ⟨src, payload, hrun, by simp [replyTo, UdpSession.payloadOf, h, hrun]⟩

theorem pollDirect_handle {packet : Bytes} (hout : st.session.outbound = .direct)
    (hlive : st.session.cancelled = false) (hrecv : w.recv = some (.data packet))
    (hpacket : packet ≠ []) :
    st.pollDirect w = (.pending, st.handled w st.idleDeadline packet) := by
  obtain ⟨b, rest, rfl⟩ := List.exists_cons_of_ne_nil hpacket
  simp only [pollDirect, hlive, hrecv, connectedUdpRecvResult, handled, replyTo_direct hout]
  rfl

theorem pollSocks5_handle {packet : Bytes} (hout : st.session.outbound = .socks5)
    (hlive : st.session.cancelled = false) (hidle : ¬Idle idleTimeoutSecs st w)
    (hrecv : w.recv = some (.data packet)) (hpacket : packet ≠ []) :
    st.pollSocks5 idleTimeoutSecs w =
      match resetIdleDeadline st.idleDeadline w.resetAt idleTimeoutSecs with
      | none => (.panicked, st.touch w.nowSecs)
      | some idleDeadline => (.pending, st.handled w idleDeadline packet) := by
  obtain ⟨b, rest, rfl⟩ := List.exists_cons_of_ne_nil hpacket
  have hidle' : ¬(0 < idleTimeoutSecs ∧ st.idleDeadline.nanos ≤ w.now.nanos) :=
    fun h => hidle ⟨hout, h⟩
  have hkey : (st.touch w.nowSecs).session.key = st.session.key := rfl
  have hdeadline : (st.touch w.nowSecs).idleDeadline = st.idleDeadline := rfl
  simp only [pollSocks5, hlive, hidle', hrecv, connectedUdpRecvResult, hkey, hdeadline,
    Bool.false_eq_true, if_false]
  cases resetIdleDeadline st.idleDeadline w.resetAt idleTimeoutSecs with
  | none => rfl
  | some idleDeadline =>
    obtain ⟨e, hrun, hreply⟩ | ⟨src, payload, hrun, hreply⟩ := replyTo_socks5 hout (b :: rest)
    · simp only [hrun, handled, hreply, List.append_nil]
      rfl
    · simp only [hrun, handled, hreply, UdpSession.sendReply_clientVisibleSrc]
      rfl

/-- One poll of either loop. -/
theorem poll_eq (idleTimeoutSecs : UInt64) (st : ReplyLoop) (w : Wake) :
    st.poll idleTimeoutSecs w =
      if st.session.cancelled then (.cancelled, st)
      else if Idle idleTimeoutSecs st w then (.idleTimeout, st)
      else
        match w.recv with
        | some (.failed error) =>
          (.failed s!"{direction st.session.outbound} UDP recv failed: {error}", st)
        | _ =>
          match w.datagram with
          | none => (.pending, st)
          | some packet =>
            match deadlineOfReply idleTimeoutSecs st w with
            | none => (.panicked, st.touch w.nowSecs)
            | some idleDeadline => (.pending, st.handled w idleDeadline packet) := by
  cases hcancelled : st.session.cancelled with
  | true =>
    cases hout : st.session.outbound <;> simp [poll, hout, pollDirect, pollSocks5, hcancelled]
  | false =>
    rw [if_neg Bool.false_ne_true]
    cases hout : st.session.outbound with
    | direct =>
      have hidle : ¬Idle idleTimeoutSecs st w := fun h => by cases hout.symm.trans h.1
      rw [if_neg hidle, poll, hout]
      match hrecv : w.recv with
      | some (.data (b :: rest)) =>
        simpa [Wake.datagram, hrecv, deadlineOfReply, hout] using
          pollDirect_handle hout hcancelled hrecv (List.cons_ne_nil b rest)
      | none | some (.data []) | some .emsgsize | some (.failed _) =>
        simp [pollDirect, hcancelled, hrecv, connectedUdpRecvResult, Wake.datagram, direction]
    | socks5 =>
      rw [poll, hout]
      by_cases hidle : Idle idleTimeoutSecs st w
      · rw [if_pos hidle]
        simp [pollSocks5, hcancelled, hidle.2]
      · have hidle' : ¬(0 < idleTimeoutSecs ∧ st.idleDeadline.nanos ≤ w.now.nanos) :=
          fun h => hidle ⟨hout, h⟩
        rw [if_neg hidle]
        match hrecv : w.recv with
        | some (.data (b :: rest)) =>
          simpa [Wake.datagram, hrecv, deadlineOfReply, hout] using
            pollSocks5_handle hout hcancelled hidle hrecv (List.cons_ne_nil b rest)
        | none | some (.data []) | some .emsgsize | some (.failed _) =>
          simp only [pollSocks5, hcancelled, hidle', hrecv, connectedUdpRecvResult, Wake.datagram,
            direction, Bool.false_eq_true, if_false]

/-- The polls after which the loop goes on: nothing to handle, or one datagram. -/
theorem poll_pending (h : st.poll idleTimeoutSecs w = (.pending, st')) :
    (w.datagram = none ∧ st' = st) ∨ ∃ packet idleDeadline, w.datagram = some packet ∧
      deadlineOfReply idleTimeoutSecs st w = some idleDeadline ∧
      st' = st.handled w idleDeadline packet := by
  rw [poll_eq] at h
  split_ifs at h
  · cases h
  · cases h
  · match hrecv : w.recv with
    | none | some (.data []) | some .emsgsize =>
      simp only [hrecv, Wake.datagram, Prod.mk.injEq, true_and] at h
      exact .inl ⟨by simp [Wake.datagram, hrecv], h.symm⟩
    | some (.failed _) => simp [hrecv] at h
    | some (.data (b :: rest)) =>
      have hpacket : w.datagram = some (b :: rest) := by simp [Wake.datagram, hrecv]
      simp only [hrecv, hpacket] at h
      cases hdeadline : deadlineOfReply idleTimeoutSecs st w with
      | none => simp [hdeadline] at h
      | some idleDeadline =>
        simp only [hdeadline, Prod.mk.injEq, true_and] at h
        exact .inr ⟨_, idleDeadline, hpacket, rfl, h.symm⟩

theorem poll_of_step {timeoutSecs : ℕ}
    (h : st.step timeoutSecs idleTimeoutSecs (.wake w) = some st') :
    st.poll idleTimeoutSecs w = (.pending, st') := by
  rw [step] at h
  split at h
  · next heq => rw [heq, Option.some.inj h]
  · cases h

/-! ### Runs -/

variable {s : UdpSession} {now : Instant} {timeoutSecs : ℕ} {acts : List LifeAction}

/-- The state after a history, for a session that was created at `now`. -/
structure After (s : UdpSession) (now : Instant) (timeoutSecs : ℕ) (idleTimeoutSecs : UInt64)
    (acts : List LifeAction) (st : ReplyLoop) : Prop where
  sameFlow : s.SameFlow st.session
  cancelled : st.session.cancelled = true ↔ Retired timeoutSecs s.lastSeenSecs acts
  lastSeenSecs : st.session.lastSeenSecs = lastUse s.lastSeenSecs acts
  idleDeadline : s.outbound = .socks5 → 0 < idleTimeoutSecs →
    some st.idleDeadline = deadlineAfter (lastReply now acts) idleTimeoutSecs
  replies : st.replies = repliesOf s acts

theorem after_start (hlive : s.cancelled = false) (h : start s now idleTimeoutSecs = some st) :
    After s now timeoutSecs idleTimeoutSecs [] st := by
  obtain ⟨idleDeadline, hdeadline, rfl⟩ := Option.map_eq_some_iff.mp h
  have hnot : ¬Retired timeoutSecs s.lastSeenSecs [] := by simp [Retired]
  refine ⟨⟨rfl, rfl⟩, iff_of_false (by simp [hlive]) hnot, rfl, fun _ hpos => ?_, rfl⟩
  rw [makeIdleDeadline, if_pos hpos] at hdeadline
  exact hdeadline.symm

namespace After

/-- An action that brings no datagram, uses the session or not, and retires it or not. -/
theorem quiet {a : LifeAction} (h : After s now timeoutSecs idleTimeoutSecs acts st)
    (hdatagram : a.datagram = none) (hreply : a.replyAt = none)
    (hflow : st.session.SameFlow st'.session)
    (hcancelled : st'.session.cancelled = true ↔ st.session.cancelled = true ∨ a = .cancel ∨
      ∃ nowSecs, a = .cleanup nowSecs ∧ timeoutSecs ≤ nowSecs - st.session.lastSeenSecs)
    (hlastSeen : st'.session.lastSeenSecs = a.usedAt.getD st.session.lastSeenSecs)
    (hdeadline : st'.idleDeadline = st.idleDeadline) (hreplies : st'.replies = st.replies) :
    After s now timeoutSecs idleTimeoutSecs (acts ++ [a]) st' where
  sameFlow := ⟨hflow.spec.trans h.sameFlow.spec, hflow.outbound.trans h.sameFlow.outbound⟩
  cancelled := by rw [hcancelled, h.cancelled, h.lastSeenSecs, retired_concat]
  lastSeenSecs := by rw [hlastSeen, h.lastSeenSecs, lastUse_concat]
  idleDeadline := by
    rw [hdeadline, lastReply_concat, hreply]
    exact h.idleDeadline
  replies := by
    rw [hreplies, h.replies, repliesOf_concat, hdatagram]
    exact (List.append_nil _).symm

/-- A datagram that is handled. -/
theorem datagram {packet : Bytes} {idleDeadline : Instant}
    (h : After s now timeoutSecs idleTimeoutSecs acts st) (hpacket : w.datagram = some packet)
    (hdeadline : deadlineOfReply idleTimeoutSecs st w = some idleDeadline) :
    After s now timeoutSecs idleTimeoutSecs (acts ++ [.wake w]) (st.handled w idleDeadline packet)
    where
  sameFlow := ⟨h.sameFlow.spec, h.sameFlow.outbound⟩
  cancelled := by
    have hsame : (st.handled w idleDeadline packet).session.cancelled = st.session.cancelled := rfl
    rw [hsame, h.cancelled, retired_concat]
    simp
  lastSeenSecs := by
    rw [lastUse_concat, LifeAction.usedAt, hpacket]
    rfl
  idleDeadline := by
    intro hout hpos
    rw [deadlineOfReply, h.sameFlow.outbound, hout] at hdeadline
    have hreset : resetIdleDeadline st.idleDeadline w.resetAt idleTimeoutSecs = some idleDeadline :=
      hdeadline
    rw [lastReply_concat, LifeAction.replyAt, hpacket]
    exact (deadlineAfter_of_reset hpos hreset).symm
  replies := by
    have hreply : replyTo st.session packet = replyTo s packet := by
      rw [replyTo, replyTo, h.sameFlow.payloadOf, h.sameFlow.deliver]
    rw [repliesOf_concat, LifeAction.datagram, hpacket, ← h.replies]
    simp [handled, hreply]

theorem step {a : LifeAction} (h : After s now timeoutSecs idleTimeoutSecs acts st)
    (hstep : st.step timeoutSecs idleTimeoutSecs a = some st') :
    After s now timeoutSecs idleTimeoutSecs (acts ++ [a]) st' := by
  cases a with
  | wake w =>
    obtain ⟨hnone, rfl⟩ | ⟨packet, idleDeadline, hpacket, hdeadline, rfl⟩ :=
      poll_pending (poll_of_step hstep)
    · exact h.quiet hnone (by simp [LifeAction.replyAt, hnone]) ⟨rfl, rfl⟩ (by simp)
        (by simp [LifeAction.usedAt, hnone]) rfl rfl
    · exact h.datagram hpacket hdeadline
  | clientPayload nowSecs =>
    obtain rfl := Option.some.inj hstep
    exact h.quiet rfl rfl ⟨rfl, rfl⟩ (by simp [touch, UdpSession.touch]) rfl rfl rfl
  | cancel =>
    obtain rfl := Option.some.inj hstep
    exact h.quiet rfl rfl ⟨rfl, rfl⟩ (by simp [cancel]) rfl rfl rfl
  | cleanup nowSecs =>
    obtain rfl := Option.some.inj hstep
    split_ifs with hunused
    · exact h.quiet rfl rfl ⟨rfl, rfl⟩ (by simp [cancel, hunused]) rfl rfl rfl
    · exact h.quiet rfl rfl ⟨rfl, rfl⟩ (by simp [hunused]) rfl rfl rfl

end After

theorem after_of_run (hlive : s.cancelled = false) (hstart : start s now idleTimeoutSecs = some st)
    (hrun : run (step timeoutSecs idleTimeoutSecs) st acts = some st') :
    After s now timeoutSecs idleTimeoutSecs acts st' :=
  run_invariant (I := fun acts st => After s now timeoutSecs idleTimeoutSecs acts st)
    (after_start hlive hstart) (fun _ _ _ _ h hstep => h.step hstep) hrun

/-- What was built around a payload brings it, whatever the target in its header. -/
theorem payloadOf_built {target : Socks5UdpTarget} {payload packet : Bytes}
    (hout : s.outbound = .socks5) (hbuilt : buildSocks5UdpPacket target payload = .ok packet) :
    s.payloadOf packet = some payload := by
  have hparse : ∃ src,
      parseSocks5UdpPacketWithFallbackSrc packet s.key.targetAddr = pure (src, payload) := by
    cases target with
    | ip addr =>
      rw [buildSocks5UdpPacket_ip] at hbuilt
      obtain rfl := Except.ok.inj hbuilt
      exact ⟨_, parse_build_ip addr payload s.key.targetAddr⟩
    | domain host port =>
      have hvalid : ¬(host.isEmpty || decide (255 < host.length)) = true := by
        intro hinvalid
        rw [buildSocks5UdpPacket, if_pos hinvalid] at hbuilt
        cases hbuilt
      have hhost : host ≠ [] ∧ host.length ≤ 255 := by simpa using hvalid
      obtain ⟨packet', hbuilt', hparse⟩ :=
        parse_build_domain hhost.1 hhost.2 port payload s.key.targetAddr
      obtain rfl := Except.ok.inj (hbuilt'.symm.trans hbuilt)
      exact ⟨_, hparse⟩
  obtain ⟨src, hparse⟩ := hparse
  rw [UdpSession.payloadOf, hout, hparse]
  rfl

theorem filterMap_payloadOf_built {packets payloads : List Bytes} (hout : s.outbound = .socks5)
    (hbuilt : List.Forall₂
      (fun packet payload => ∃ target, buildSocks5UdpPacket target payload = .ok packet)
      packets payloads) :
    packets.filterMap s.payloadOf = payloads := by
  induction hbuilt with
  | nil => rfl
  | cons hpacket _ ih =>
    obtain ⟨target, hpacket⟩ := hpacket
    rw [List.filterMap_cons_some (payloadOf_built hout hpacket), ih]

/-- The watchdog is due: the relay has been silent for the timeout since its last datagram, valid or
not, or since the start. -/
def WatchdogDue (s : UdpSession) (start : Instant) (idleTimeoutSecs : UInt64)
    (acts : List LifeAction) (now : Instant) : Prop :=
  s.outbound = .socks5 ∧ 0 < idleTimeoutSecs ∧
    ∃ deadline, deadlineAfter (lastReply start acts) idleTimeoutSecs = some deadline ∧
      deadline.nanos ≤ now.nanos

theorem After.idle_iff (h : After s now timeoutSecs idleTimeoutSecs acts st) (w : Wake) :
    Idle idleTimeoutSecs st w ↔ WatchdogDue s now idleTimeoutSecs acts w.now := by
  unfold Idle WatchdogDue
  rw [h.sameFlow.outbound]
  refine and_congr_right fun hout => and_congr_right fun hpos => ?_
  rw [← h.idleDeadline hout hpos]
  simp

theorem deadlineOfReply_eq_none_iff (st : ReplyLoop) (w : Wake) (idleTimeoutSecs : UInt64) :
    deadlineOfReply idleTimeoutSecs st w = none ↔ st.session.outbound = .socks5 ∧
      0 < idleTimeoutSecs ∧ w.resetAt.checkedAdd farFuture = none := by
  unfold deadlineOfReply resetIdleDeadline
  cases st.session.outbound with
  | direct => simp
  | socks5 => split_ifs with hpos <;> simp [hpos]

/-- What a poll finds brings nothing to the client: no datagram, an empty one, `EMSGSIZE`, or a
packet of the relay that is no SOCKS5 packet. -/
def Skips (s : UdpSession) (w : Wake) : Prop :=
  w.recv = none ∨ w.recv = some (.data []) ∨ w.recv = some .emsgsize ∨
    ∃ packet, w.recv = some (.data packet) ∧ s.payloadOf packet = none

/-- A poll that brings nothing leaves the loop running. -/
theorem After.step_of_skips (h : After s now timeoutSecs idleTimeoutSecs acts st)
    (hskip : Skips s w) (hretired : ¬Retired timeoutSecs s.lastSeenSecs acts)
    (hdue : ¬WatchdogDue s now idleTimeoutSecs acts w.now)
    (hroom : w.resetAt.checkedAdd farFuture ≠ none) :
    ∃ st', st.step timeoutSecs idleTimeoutSecs (.wake w) = some st' ∧ st'.replies = st.replies := by
  have hcancelled : ¬st.session.cancelled = true := fun hc => hretired (h.cancelled.mp hc)
  have hidle : ¬Idle idleTimeoutSecs st w := fun hi => hdue ((h.idle_iff w).mp hi)
  have hpoll := poll_eq idleTimeoutSecs st w
  rw [if_neg hcancelled, if_neg hidle] at hpoll
  obtain hrecv | hrecv | hrecv | ⟨packet, hrecv, hnone⟩ := hskip
  · exact ⟨st, by simp [ReplyLoop.step, hpoll, hrecv, Wake.datagram], rfl⟩
  · exact ⟨st, by simp [ReplyLoop.step, hpoll, hrecv, Wake.datagram], rfl⟩
  · exact ⟨st, by simp [ReplyLoop.step, hpoll, hrecv, Wake.datagram], rfl⟩
  · cases packet with
    | nil => exact ⟨st, by simp [ReplyLoop.step, hpoll, hrecv, Wake.datagram], rfl⟩
    | cons b rest =>
      obtain ⟨idleDeadline, hdeadline⟩ : ∃ idleDeadline,
          deadlineOfReply idleTimeoutSecs st w = some idleDeadline := by
        rw [← Option.ne_none_iff_exists']
        exact fun hno => hroom ((deadlineOfReply_eq_none_iff st w idleTimeoutSecs).mp hno).2.2
      have hreply : replyTo st.session (b :: rest) = [] := by
        rw [replyTo, h.sameFlow.payloadOf, hnone]
        rfl
      refine ⟨st.handled w idleDeadline (b :: rest), ?_, ?_⟩
      · simp [ReplyLoop.step, hpoll, hrecv, Wake.datagram, hdeadline]
      · rw [handled, hreply, List.append_nil]

/-- **The end of the loop.** After every history the next poll ends the loop as cancelled if and
only if the session has been cancelled, by a shutdown or by a cleanup that found it unused in both
directions for its timeout. Otherwise it ends the loop as idle if and only if the watchdog is due,
even when a datagram is ready: what the client sends does not put it off, and a direct session has
none. Otherwise it fails exactly with an error of the socket, and panics exactly when a datagram of
the relay arrives at a time to which thirty years cannot be added, whatever the timeout. -/
theorem loop_end (hlive : s.cancelled = false) (hstart : start s now idleTimeoutSecs = some st)
    (hrun : run (step timeoutSecs idleTimeoutSecs) st acts = some st') (w : Wake) :
    ((st'.poll idleTimeoutSecs w).1 = .cancelled ↔ Retired timeoutSecs s.lastSeenSecs acts) ∧
    ((st'.poll idleTimeoutSecs w).1 = .idleTimeout ↔
      ¬Retired timeoutSecs s.lastSeenSecs acts ∧ WatchdogDue s now idleTimeoutSecs acts w.now) ∧
    ((∃ error, (st'.poll idleTimeoutSecs w).1 = .failed error) ↔
      ¬Retired timeoutSecs s.lastSeenSecs acts ∧ ¬WatchdogDue s now idleTimeoutSecs acts w.now ∧
        ∃ error, w.recv = some (.failed error)) ∧
    ((st'.poll idleTimeoutSecs w).1 = .panicked ↔
      ¬Retired timeoutSecs s.lastSeenSecs acts ∧ ¬WatchdogDue s now idleTimeoutSecs acts w.now ∧
        w.datagram ≠ none ∧ s.outbound = .socks5 ∧ 0 < idleTimeoutSecs ∧
          w.resetAt.checkedAdd farFuture = none) := by
  have h := after_of_run hlive hstart hrun
  have hdeadline := deadlineOfReply_eq_none_iff st' w idleTimeoutSecs
  rw [h.sameFlow.outbound] at hdeadline
  rw [← h.cancelled, ← h.idle_iff w, ← hdeadline, poll_eq]
  split_ifs with hcancelled hidle
  · simp [hcancelled]
  · simp [hcancelled, hidle]
  · match hrecv : w.recv with
    | none | some (.data []) | some .emsgsize | some (.failed _) =>
      simp [hcancelled, hidle, Wake.datagram, hrecv]
    | some (.data (b :: rest)) =>
      cases deadlineOfReply idleTimeoutSecs st' w <;>
        simp [hcancelled, hidle, Wake.datagram, hrecv]

/-- A transparent session over SOCKS5. -/
def relayedSession : UdpSession where
  spec := .forTproxy (.v4 ⟨10, 0, 0, 2⟩ 5000) (.v4 ⟨1, 2, 3, 4⟩ 443)
  outbound := .socks5
  lastSeenSecs := 100
  cancelled := false
  recvTask := .running

/-- The instant at a second of the first minute. -/
def atSecond (secs : Fin 60) : Instant := ⟨secs * 10 ^ 9, by omega⟩

/-- At second 5 the relay sends a payload under an address of its own, then bytes that are no
packet; the client sends on. -/
def relayedHistory : List LifeAction :=
  [.wake { now := atSecond 5, nowSecs := 105,
           recv := some (.data ([0, 0, 0, 1, 9, 9, 9, 9, 0, 53] ++ [0xaa])) },
    .wake { now := atSecond 6, nowSecs := 106, recv := some (.data [0xff]) },
    .clientPayload 130]

theorem exists_run_relayed :
    ∃ st st', start relayedSession (atSecond 0) 31 = some st ∧
      run (step 120 31) st relayedHistory = some st' :=
  ⟨_, _, rfl, rfl⟩

/-- With a watchdog of 31 seconds the loop ends 31 seconds after the last datagram, in spite of what
the client sends. -/
theorem loop_end_relayed :
    ∃ st st', start relayedSession (atSecond 0) 31 = some st ∧
      run (step 120 31) st relayedHistory = some st' ∧
      (st'.poll 31 { now := atSecond 37 }).1 = .idleTimeout ∧
      (st'.poll 31 { now := atSecond 36 }).1 ≠ .idleTimeout := by
  obtain ⟨st, st', hstart, hrun⟩ := exists_run_relayed
  have hlive : ¬Retired 120 relayedSession.lastSeenSecs relayedHistory := by
    rintro (hcancel | ⟨before, nowSecs, after, heq, -⟩)
    · simp [relayedHistory] at hcancel
    · have hmem : LifeAction.cleanup nowSecs ∈ relayedHistory := by simp [heq]
      simp [relayedHistory] at hmem
  have hend := fun w => (loop_end rfl hstart hrun w).2.1
  refine ⟨st, st', hstart, hrun, (hend _).mpr ⟨hlive, rfl, by decide, atSecond 37, rfl, by decide⟩,
    fun hidle => ?_⟩
  obtain ⟨-, -, -, deadline, hdeadline, hle⟩ := (hend _).mp hidle
  obtain rfl : atSecond 37 = deadline := Option.some.inj hdeadline
  exact absurd hle (by decide)

end ReplyLoop

end XtpRs.Udp
