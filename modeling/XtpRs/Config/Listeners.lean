import XtpRs.Config.Startup

/-!
# The sockets that a start listens on

`spawn_listener_tasks` of `src/state.rs` binds the transparent listeners: one for the configured
address, and both `0.0.0.0` and `[::]` if that is `[::]`. `spawn_port_forward_tasks` binds the
sockets of the port forwards. All of them share their address with other sockets
(`set_socket_reuse`), so two sockets of one address are no failure of a start. `validate` compares
each port forward with the address of the configuration only.

## Main definitions

* `createTproxyTcpListeners`, `createTproxyUdpSockets`, `portForwardSockets`.
* `Config.boundSockets`: the sockets of a start, in the order in which they are bound.
* `Config.Separate`: the condition under which no two of them have one address.

## Main results

* `Config.nodup_keys_boundSockets_iff`: the addresses of an accepted configuration are distinct
  exactly under that condition.
-/

namespace XtpRs

/-- The protocol of a listening socket. -/
inductive Protocol
  | tcp
  | udp
  deriving DecidableEq, Repr

/-- A bound socket, with the options that `apply_socket_options` sets. -/
structure ListenSocket where
  protocol : Protocol
  addr : SocketAddr
  transparent : Bool
  onlyV6 : Option Bool
  reuseAddr : Bool
  reusePort : Bool
  deriving DecidableEq, Repr

/-- The protocol, the address and the port that a socket is bound to. A port of zero, for which the
kernel picks one, counts as it is configured. -/
def ListenSocket.key (socket : ListenSocket) : Protocol × IpAddr × UInt16 :=
  (socket.protocol, socket.addr.ip, socket.addr.port)

/-! ### The sockets of the socket factory -/

/-- A socket with the options of `apply_socket_options`, bound to its address. `set_socket_reuse`
sets `SO_REUSEADDR` and `SO_REUSEPORT` together. -/
def bindSocket (protocol : Protocol) (addr : SocketAddr) (reuseAddr transparent : Bool)
    (onlyV6 : Option Bool) : ListenSocket where
  protocol := protocol
  addr := addr
  transparent := transparent
  onlyV6 := if addr.isIpv6 then onlyV6 else none
  reuseAddr := reuseAddr
  reusePort := reuseAddr

/-- `SocketFactory::bind_tcp_listener`. -/
def bindTcpListener (addr : SocketAddr) (reuseAddr transparent : Bool) (onlyV6 : Option Bool) :
    ListenSocket :=
  bindSocket .tcp addr reuseAddr transparent onlyV6

/-- `SocketFactory::bind_tproxy_udp_socket`. -/
def bindTproxyUdpSocket (addr : SocketAddr) (onlyV6 : Option Bool) : ListenSocket :=
  bindSocket .udp addr true true onlyV6

/-- `SocketFactory::bind_port_forward_udp_listener`. -/
def bindPortForwardUdpListener (addr : SocketAddr) : ListenSocket :=
  bindSocket .udp addr true false none

/-- `tproxy_tcp_listener_for_ip`. -/
def tproxyTcpListenerForIp (ip : IpAddr) (port : UInt16) : ListenSocket :=
  let sa := SocketAddr.new ip port
  bindTcpListener sa true true (if sa.isIpv6 then some true else none)

/-- `tproxy_udp_socket_for_ip`. -/
def tproxyUdpSocketForIp (ip : IpAddr) (port : UInt16) : ListenSocket :=
  let sa := SocketAddr.new ip port
  bindTproxyUdpSocket sa (if sa.isIpv6 then some true else none)

/-- `Ipv4Addr::UNSPECIFIED`. -/
def Ipv4Addr.unspecified : Ipv4Addr := ⟨0, 0, 0, 0⟩

/-- `Ipv6Addr::UNSPECIFIED`. -/
def Ipv6Addr.unspecified : Ipv6Addr := .new 0 0 0 0 0 0 0 0

/-- The IPv4 and the IPv6 socket for a listen address: both of them for `[::]`. -/
def createTproxySockets (socketForIp : IpAddr → UInt16 → ListenSocket) (ip : IpAddr)
    (port : UInt16) : Option ListenSocket × Option ListenSocket :=
  match ip with
  | .v4 _ => (some (socketForIp ip port), none)
  | .v6 v6 =>
    if v6.isUnspecified then
      (some (socketForIp (.v4 .unspecified) port), some (socketForIp (.v6 .unspecified) port))
    else (none, some (socketForIp ip port))

/-- `create_tproxy_tcp_listeners`. -/
def createTproxyTcpListeners (ip : IpAddr) (port : UInt16) :
    Option ListenSocket × Option ListenSocket :=
  createTproxySockets tproxyTcpListenerForIp ip port

/-- `create_tproxy_udp_sockets`. -/
def createTproxyUdpSockets (ip : IpAddr) (port : UInt16) :
    Option ListenSocket × Option ListenSocket :=
  createTproxySockets tproxyUdpSocketForIp ip port

/-! ### The sockets of a start -/

/-- The sockets of `spawn_port_forward_tasks` for one entry. -/
def PortForwardProto.sockets (network : PortForwardProto) (bind : SocketAddr) : List ListenSocket :=
  match network with
  | .tcp => [bindTcpListener bind true false none]
  | .udp => [bindPortForwardUdpListener bind]
  | .both => [bindTcpListener bind true false none, bindPortForwardUdpListener bind]

/-- The sockets that `spawn_port_forward_tasks` binds. It gives up at the first entry with an
address that is none. -/
def portForwardSockets : List PortForward → List ListenSocket
  | [] => []
  | pf :: rest =>
    match parsePortForward pf with
    | .error _ => []
    | .ok (bind, _) => pf.network.sockets bind ++ portForwardSockets rest

namespace Config

variable (c : Config)

/-- The sockets of `spawn_listener_tasks`. -/
def listenerSockets (listen : IpAddr × UInt16) : List ListenSocket :=
  let (tcpV4, tcpV6) := createTproxyTcpListeners listen.1 listen.2
  let (udpV4, udpV6) := createTproxyUdpSockets listen.1 listen.2
  tcpV4.toList ++ tcpV6.toList ++ if c.udp then udpV4.toList ++ udpV6.toList else []

/-- The sockets that `spawn_all_tasks` binds, in this order. -/
def boundSockets : List ListenSocket :=
  match parseListenAddr c.listen with
  | .error _ => []
  | .ok listen => c.listenerSockets listen ++ portForwardSockets c.portForward

/-- The port forwards before the first one whose remote address is none. -/
def servedForwards : List PortForward :=
  c.portForward.takeWhile fun pf => (parseSocketAddr pf.remote).isSome

end Config

/-- The protocols of a port forward. -/
def PortForwardProto.protocols : PortForwardProto → List Protocol
  | .tcp => [.tcp]
  | .udp => [.udp]
  | .both => [.tcp, .udp]

/-- Two port forwards with one address and a protocol in common. -/
def PortForward.Clash (pf pf' : PortForward) : Prop :=
  (∃ bind bind', parseSocketAddr pf.bind = some bind ∧ parseSocketAddr pf'.bind = some bind' ∧
    bind.ip = bind'.ip ∧ bind.port = bind'.port) ∧
  ∃ p ∈ pf.network.protocols, p ∈ pf'.network.protocols

/-- What `validate` does not check: a port forward on `0.0.0.0` beside the listen address `[::]`
of the same port is for UDP, with transparent UDP off; and no two port forwards clash. -/
structure Config.Separate (c : Config) : Prop where
  listen : ∀ pf ∈ c.servedForwards, ∀ bind listen, parseSocketAddr pf.bind = some bind →
    parseSocketAddr c.listen = some listen → listen.ip = .v6 .unspecified →
    bind.ip = .v4 .unspecified → bind.port = listen.port → c.udp = false ∧ pf.network = .udp
  forwards : c.servedForwards.Pairwise fun pf pf' => ¬pf.Clash pf'

/-! ### The addresses -/

/-- The addresses that a listen address stands for. -/
def listenIps : IpAddr → List IpAddr
  | .v4 ip => [.v4 ip]
  | .v6 ip => if ip.isUnspecified then [.v4 .unspecified, .v6 .unspecified] else [.v6 ip]

theorem nodup_listenIps (ip : IpAddr) : (listenIps ip).Nodup := by
  cases ip with
  | v4 ip => simp [listenIps]
  | v6 ip =>
    rw [listenIps]
    split_ifs <;> simp

/-- The addresses besides the listen address itself. -/
theorem mem_listenIps_iff {ip ip' : IpAddr} : ip' ∈ listenIps ip ↔
    ip' = ip ∨ ip = .v6 .unspecified ∧ ip' = .v4 .unspecified := by
  cases ip with
  | v4 ip => simp [listenIps]
  | v6 ip =>
    rw [listenIps]
    split_ifs with hun
    · have hip : ip = .unspecified := beq_iff_eq.mp hun
      rw [hip]
      simp [or_comm]
    · have hip : ip ≠ .unspecified := fun h => hun (beq_iff_eq.mpr h)
      simp [hip]

/-- The protocols of the transparent listeners. -/
def Config.listenProtocols (c : Config) : List Protocol :=
  .tcp :: if c.udp then [.udp] else []

theorem Config.nodup_listenProtocols (c : Config) : c.listenProtocols.Nodup := by
  rw [listenProtocols]
  split_ifs <;> simp

@[simp] theorem key_tproxyTcpListenerForIp (ip : IpAddr) (port : UInt16) :
    (tproxyTcpListenerForIp ip port).key = (.tcp, ip, port) := by
  simp [tproxyTcpListenerForIp, bindTcpListener, bindSocket, ListenSocket.key]

@[simp] theorem key_tproxyUdpSocketForIp (ip : IpAddr) (port : UInt16) :
    (tproxyUdpSocketForIp ip port).key = (.udp, ip, port) := by
  simp [tproxyUdpSocketForIp, bindTproxyUdpSocket, bindSocket, ListenSocket.key]

/-- One protocol has a listener for each of the addresses. -/
theorem map_key_createTproxySockets {socketForIp : IpAddr → UInt16 → ListenSocket} {p : Protocol}
    (hkey : ∀ ip port, (socketForIp ip port).key = (p, ip, port)) (ip : IpAddr) (port : UInt16) :
    ((createTproxySockets socketForIp ip port).1.toList ++
        (createTproxySockets socketForIp ip port).2.toList).map ListenSocket.key =
      (listenIps ip).map fun ip => (p, ip, port) := by
  cases ip with
  | v4 ip => simp [createTproxySockets, listenIps, hkey]
  | v6 ip =>
    rw [createTproxySockets, listenIps]
    split_ifs <;> simp [hkey]

namespace Config

/-- A transparent listener for each protocol and each address. -/
theorem map_key_listenerSockets (c : Config) (listen : IpAddr × UInt16) :
    (c.listenerSockets listen).map ListenSocket.key =
      c.listenProtocols.flatMap fun p => (listenIps listen.1).map fun ip => (p, ip, listen.2) := by
  have htcp := map_key_createTproxySockets key_tproxyTcpListenerForIp listen.1 listen.2
  have hudp := map_key_createTproxySockets key_tproxyUdpSocketForIp listen.1 listen.2
  rw [listenerSockets, listenProtocols, List.map_append]
  rw [createTproxyTcpListeners, createTproxyUdpSockets, htcp, List.flatMap_cons]
  congr 1
  split_ifs
  · rw [hudp, List.flatMap_singleton]
  · rfl

theorem mem_keys_listenerSockets_iff {c : Config} {listen : IpAddr × UInt16}
    {k : Protocol × IpAddr × UInt16} : k ∈ (c.listenerSockets listen).map ListenSocket.key ↔
      k.1 ∈ c.listenProtocols ∧ k.2.1 ∈ listenIps listen.1 ∧ k.2.2 = listen.2 := by
  obtain ⟨p, ip, port⟩ := k
  rw [map_key_listenerSockets]
  simp only [List.mem_flatMap, List.mem_map, Prod.mk.injEq]
  constructor
  · rintro ⟨p', hp, ip', hip, rfl, rfl, rfl⟩
    exact ⟨hp, hip, rfl⟩
  · rintro ⟨hp, hip, rfl⟩
    exact ⟨p, hp, ip, hip, rfl, rfl, rfl⟩

/-- The transparent listeners do not share an address. -/
theorem nodup_keys_listenerSockets (c : Config) (listen : IpAddr × UInt16) :
    ((c.listenerSockets listen).map ListenSocket.key).Nodup := by
  rw [map_key_listenerSockets, List.nodup_flatMap]
  refine ⟨fun p _ => (nodup_listenIps listen.1).map fun ip ip' h => ?_, ?_⟩
  · simpa using h
  · refine c.nodup_listenProtocols.imp fun {p p'} hne => ?_
    rintro k hk hk'
    obtain ⟨ip, -, rfl⟩ := List.mem_map.mp hk
    obtain ⟨ip', -, h⟩ := List.mem_map.mp hk'
    exact hne (congrArg Prod.fst h).symm

end Config

/-! ### The port forwards -/

/-- The addresses of the sockets of a port forward. -/
def PortForward.keys (pf : PortForward) : List (Protocol × IpAddr × UInt16) :=
  match parseSocketAddr pf.bind with
  | some bind => pf.network.protocols.map fun p => (p, bind.ip, bind.port)
  | none => []

theorem map_key_sockets (network : PortForwardProto) (bind : SocketAddr) :
    (network.sockets bind).map ListenSocket.key =
      network.protocols.map fun p => (p, bind.ip, bind.port) := by
  cases network <;> rfl

namespace PortForward

theorem mem_keys_iff {pf : PortForward} {k : Protocol × IpAddr × UInt16} : k ∈ pf.keys ↔
    ∃ bind, parseSocketAddr pf.bind = some bind ∧ k.1 ∈ pf.network.protocols ∧
      k.2 = (bind.ip, bind.port) := by
  obtain ⟨p, ip, port⟩ := k
  rw [keys]
  cases parseSocketAddr pf.bind with
  | none => simp
  | some bind => simp [eq_comm]

theorem nodup_keys (pf : PortForward) : pf.keys.Nodup := by
  rw [keys]
  cases parseSocketAddr pf.bind with
  | none => exact List.nodup_nil
  | some bind => cases hnetwork : pf.network <;> simp [PortForwardProto.protocols]

theorem disjoint_keys_iff {pf pf' : PortForward} : pf.keys.Disjoint pf'.keys ↔ ¬pf.Clash pf' := by
  rw [List.disjoint_iff_ne]
  constructor
  · rintro h ⟨⟨bind, bind', hbind, hbind', hip, hport⟩, p, hp, hp'⟩
    refine h (p, bind.ip, bind.port) (mem_keys_iff.mpr ⟨bind, hbind, hp, rfl⟩)
      (p, bind.ip, bind.port) (mem_keys_iff.mpr ⟨bind', hbind', hp', ?_⟩) rfl
    rw [hip, hport]
  · rintro h k hk k' hk' rfl
    obtain ⟨bind, hbind, hp, heq⟩ := mem_keys_iff.mp hk
    obtain ⟨bind', hbind', hp', heq'⟩ := mem_keys_iff.mp hk'
    obtain ⟨hip, hport⟩ := Prod.mk.inj (heq.symm.trans heq')
    exact h ⟨⟨bind, bind', hbind, hbind', hip, hport⟩, k.1, hp, hp'⟩

end PortForward

/-- If the local addresses parse, then the sockets are those of the entries that come before a
remote address that is none. -/
theorem map_key_portForwardSockets {forwards : List PortForward}
    (hbind : ∀ pf ∈ forwards, (parseSocketAddr pf.bind).isSome = true) :
    (portForwardSockets forwards).map ListenSocket.key =
      (forwards.takeWhile fun pf => (parseSocketAddr pf.remote).isSome).flatMap
        PortForward.keys := by
  induction forwards with
  | nil => rfl
  | cons pf rest ih =>
    rw [List.forall_mem_cons] at hbind
    obtain ⟨bind, hpf⟩ := Option.isSome_iff_exists.mp hbind.1
    rw [portForwardSockets, parsePortForward, hpf]
    dsimp only
    cases hremote : parseSocketAddr pf.remote with
    | none => simp [hremote]
    | some remote =>
      rw [List.takeWhile_cons_of_pos (by rw [hremote]; rfl), List.flatMap_cons, ← ih hbind.2]
      dsimp only
      rw [List.map_append, map_key_sockets, PortForward.keys, hpf]

/-! ### Shared addresses -/

theorem reuse_createTproxySockets {socketForIp : IpAddr → UInt16 → ListenSocket}
    (hreuse : ∀ ip port, (socketForIp ip port).reuseAddr = true ∧
      (socketForIp ip port).reusePort = true) {ip : IpAddr} {port : UInt16}
    {socket : ListenSocket}
    (h : socket ∈ (createTproxySockets socketForIp ip port).1.toList ++
      (createTproxySockets socketForIp ip port).2.toList) :
    socket.reuseAddr = true ∧ socket.reusePort = true := by
  obtain ⟨ip', rfl⟩ : ∃ ip', socket = socketForIp ip' port := by
    cases ip with
    | v4 ip => exact ⟨.v4 ip, by simpa [createTproxySockets] using h⟩
    | v6 ip =>
      rw [createTproxySockets] at h
      split_ifs at h
      · rcases List.mem_pair.mp h with rfl | rfl
        · exact ⟨_, rfl⟩
        · exact ⟨_, rfl⟩
      · exact ⟨.v6 ip, by simpa using h⟩
  exact hreuse ip' port

theorem reuse_of_mem_listenerSockets {c : Config} {listen : IpAddr × UInt16}
    {socket : ListenSocket} (h : socket ∈ c.listenerSockets listen) :
    socket.reuseAddr = true ∧ socket.reusePort = true := by
  rcases List.mem_append.mp h with h | h
  · exact reuse_createTproxySockets (fun _ _ => ⟨rfl, rfl⟩) h
  · split_ifs at h
    · exact reuse_createTproxySockets (fun _ _ => ⟨rfl, rfl⟩) h
    · cases h

theorem reuse_of_mem_portForwardSockets {forwards : List PortForward} {socket : ListenSocket}
    (h : socket ∈ portForwardSockets forwards) :
    socket.reuseAddr = true ∧ socket.reusePort = true := by
  induction forwards with
  | nil => cases h
  | cons pf rest ih =>
    rw [portForwardSockets] at h
    split at h
    · cases h
    · rcases List.mem_append.mp h with h | h
      · cases hnetwork : pf.network <;> rw [hnetwork] at h
        · obtain rfl := List.mem_singleton.mp h
          exact ⟨rfl, rfl⟩
        · obtain rfl := List.mem_singleton.mp h
          exact ⟨rfl, rfl⟩
        · rcases List.mem_pair.mp h with rfl | rfl
          · exact ⟨rfl, rfl⟩
          · exact ⟨rfl, rfl⟩
      · exact ih h

/-! ### Accepted configurations -/

namespace Config

variable {parseIpNet : Str → Option IpNet} {c : Config}

/-- What `validate` has found about the addresses. -/
theorem addresses_of_validate (h : c.validate parseIpNet = .ok ()) :
    ∃ addr, parseSocketAddr c.listen = some addr ∧ ∀ pf ∈ c.portForward,
      ∃ bind, parseSocketAddr pf.bind = some bind ∧
        ¬(bind.ip = addr.ip ∧ bind.port = addr.port) := by
  rw [validate, bind_unit_eq_ok_iff, bind_unit_eq_ok_iff, bind_unit_eq_ok_iff] at h
  replace h := h.2.2.2
  rw [parseListenAddr] at h
  cases haddr : parseSocketAddr c.listen with
  | none =>
    rw [haddr] at h
    cases h
  | some addr =>
    rw [haddr] at h
    refine ⟨addr, rfl, fun pf hpf => ?_⟩
    have hcheck := checkAll_eq_ok_iff.mp h pf hpf
    rw [checkPortForward] at hcheck
    cases hbind : parseSocketAddr pf.bind with
    | none =>
      rw [hbind] at hcheck
      cases hcheck
    | some bind =>
      rw [hbind] at hcheck
      refine ⟨bind, rfl, ?_⟩
      rw [not_and_or]
      simpa using ensure_eq_ok_iff.mp hcheck

/-- All sockets of a start share their address. -/
theorem reuse_of_mem_boundSockets {socket : ListenSocket} (h : socket ∈ c.boundSockets) :
    socket.reuseAddr = true ∧ socket.reusePort = true := by
  rw [boundSockets] at h
  split at h
  · cases h
  · rcases List.mem_append.mp h with h | h
    · exact reuse_of_mem_listenerSockets h
    · exact reuse_of_mem_portForwardSockets h

/-- The sockets of an accepted configuration: the transparent listeners and those of the port
forwards. -/
theorem map_key_boundSockets {addr : SocketAddr} (haddr : parseSocketAddr c.listen = some addr)
    (hbind : ∀ pf ∈ c.portForward, (parseSocketAddr pf.bind).isSome = true) :
    c.boundSockets.map ListenSocket.key =
      (c.listenerSockets (addr.ip, addr.port)).map ListenSocket.key ++
        c.servedForwards.flatMap PortForward.keys := by
  rw [boundSockets, parseListenAddr, haddr]
  dsimp only
  rw [List.map_append, map_key_portForwardSockets hbind, servedForwards]

theorem listenProtocols_and_protocols_iff {network : PortForwardProto} :
    (∃ p ∈ c.listenProtocols, p ∈ network.protocols) ↔ ¬(c.udp = false ∧ network = .udp) := by
  rw [listenProtocols]
  cases c.udp <;> cases network <;> simp [PortForwardProto.protocols]

/-- **Listeners of an accepted configuration.** All sockets of a start share their address, and no
two of them have the same one exactly if no port forward is on `0.0.0.0` beside `[::]` and no two
port forwards clash. -/
theorem nodup_keys_boundSockets_iff (h : c.validate parseIpNet = .ok ()) :
    (∀ socket ∈ c.boundSockets, socket.reuseAddr = true ∧ socket.reusePort = true) ∧
    ((c.boundSockets.map ListenSocket.key).Nodup ↔ c.Separate) := by
  refine ⟨fun socket => reuse_of_mem_boundSockets, ?_⟩
  obtain ⟨addr, haddr, hforwards⟩ := addresses_of_validate h
  have hbind : ∀ pf ∈ c.portForward, (parseSocketAddr pf.bind).isSome = true := by
    intro pf hpf
    obtain ⟨bind, hpf, -⟩ := hforwards pf hpf
    rw [hpf]
    rfl
  rw [map_key_boundSockets haddr hbind, List.nodup_append', List.nodup_flatMap]
  have hpairwise : c.servedForwards.Pairwise (Function.onFun List.Disjoint PortForward.keys) ↔
      c.servedForwards.Pairwise fun pf pf' => ¬pf.Clash pf' :=
    List.Pairwise.iff fun {_ _} => PortForward.disjoint_keys_iff
  rw [hpairwise]
  constructor
  · rintro ⟨-, ⟨-, hclash⟩, hdisjoint⟩
    refine ⟨?_, hclash⟩
    intro pf hpf bind listen hbind hlisten hun hzero hport
    obtain rfl : addr = listen := Option.some.inj (haddr.symm.trans hlisten)
    by_contra hno
    obtain ⟨p, hp, hp'⟩ := listenProtocols_and_protocols_iff.mpr hno
    refine hdisjoint (mem_keys_listenerSockets_iff.mpr ⟨hp, ?_, ?_⟩ :
      (p, bind.ip, bind.port) ∈ _) (List.mem_flatMap.mpr ⟨pf, hpf, ?_⟩)
    · exact mem_listenIps_iff.mpr (.inr ⟨hun, hzero⟩)
    · exact hport
    · exact PortForward.mem_keys_iff.mpr ⟨bind, hbind, hp', rfl⟩
  · intro hseparate
    refine ⟨nodup_keys_listenerSockets c _, ⟨fun pf _ => pf.nodup_keys, hseparate.forwards⟩, ?_⟩
    intro k hk hk'
    obtain ⟨hp, hip, hport⟩ := mem_keys_listenerSockets_iff.mp hk
    obtain ⟨pf, hpf, hk'⟩ := List.mem_flatMap.mp hk'
    obtain ⟨bind, hbind, hp', heq⟩ := PortForward.mem_keys_iff.mp hk'
    rw [heq] at hip hport
    obtain ⟨bind', hbind', hdiffer⟩ := hforwards pf (List.takeWhile_subset _ hpf)
    obtain rfl : bind = bind' := Option.some.inj (hbind.symm.trans hbind')
    rcases mem_listenIps_iff.mp hip with hsame | ⟨hun, hzero⟩
    · exact hdiffer ⟨hsame, hport⟩
    · have hudp := hseparate.listen pf hpf bind addr hbind haddr hun hzero hport
      exact listenProtocols_and_protocols_iff.mp ⟨k.1, hp, hp'⟩ hudp

/-- A configuration with the listen address `[::]:10810` and one port forward to `8.8.8.8:53`. -/
def forwardFrom (bind : Str) (network : PortForwardProto) : Config where
  upstream := [{
    id := [0x61]
    addr := .v4 ⟨127, 0, 0, 1⟩ 1080 }]
  portForward := [{
    bind
    remote := [0x38, 0x2e, 0x38, 0x2e, 0x38, 0x2e, 0x38, 0x3a, 0x35, 0x33]
    network }]

/-- The address `127.0.0.1:53`. -/
def loopbackDns : Str := [0x31, 0x32, 0x37, 0x2e, 0x30, 0x2e, 0x30, 0x2e, 0x31, 0x3a, 0x35, 0x33]

/-- A port forward on `127.0.0.1:53` is separate from the listen address. -/
theorem nodup_keys_forwardFrom_loopback :
    ((forwardFrom loopbackDns .both).boundSockets.map ListenSocket.key).Nodup := by
  have hvalid : (forwardFrom loopbackDns .both).validate exampleParseIpNet = .ok () := by
    decide +kernel
  have hloopback : parseSocketAddr loopbackDns = some (.v4 ⟨127, 0, 0, 1⟩ 53) := by
    decide +kernel
  refine (nodup_keys_boundSockets_iff hvalid).2.mpr ⟨?_, List.pairwise_singleton _ _⟩
  intro pf hpf bind listen hbind hlisten hun hzero hport
  obtain rfl := List.mem_singleton.mp (List.takeWhile_subset _ hpf)
  obtain rfl : .v4 ⟨127, 0, 0, 1⟩ 53 = bind := Option.some.inj (hloopback.symm.trans hbind)
  cases hzero

/-- A port forward on `0.0.0.0:10810` is accepted beside `[::]:10810`, and has an address of the
transparent listeners. -/
theorem not_nodup_keys_forwardFrom_unspecified :
    (forwardFrom [0x30, 0x2e, 0x30, 0x2e, 0x30, 0x2e, 0x30, 0x3a, 0x31, 0x30, 0x38, 0x31, 0x30]
      .tcp).validate exampleParseIpNet = .ok () ∧
    ¬((forwardFrom [0x30, 0x2e, 0x30, 0x2e, 0x30, 0x2e, 0x30, 0x3a, 0x31, 0x30, 0x38, 0x31, 0x30]
      .tcp).boundSockets.map ListenSocket.key).Nodup := by
  constructor
  · decide +kernel
  · decide +kernel

end Config

end XtpRs
