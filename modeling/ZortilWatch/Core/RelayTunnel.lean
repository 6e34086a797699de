import Mathlib.Data.List.DropRight
import ZortilWatch.Core.RelayRefresh
import ZortilWatch.Lib.Refinement

/-!
# Datagrams through the relay (`core/src/connection.rs`, `core/src/relay.rs`)

`drain` wraps what str0m sends from the relayed address, `recv_one` unwraps what the TURN
server brings, and in between the server passes the datagrams on. To the str0m instances of
the two ends all of this is a plain network, in which each of them has its relayed address
beside the one of its socket (`tunnel_is_network`).
-/

namespace ZortilWatch.Core

/-- An address with its port, as `SocketAddr` prints it. -/
abbrev SocketAddr := String

def SocketAddr.ip (a : SocketAddr) : String := String.ofList (a.toList.rdropWhile (· ≠ ':')).dropLast

/-- A datagram on the wire, and str0m's `Transmit` and `Receive`. -/
structure Datagram where
  source : SocketAddr
  destination : SocketAddr
  contents : Bytes
  deriving DecidableEq, Repr

structure Relay where
  turnServer : Option SocketAddr := none
  myRelayed : Option SocketAddr := none
  deriving DecidableEq, Repr

/-! ## Messages of the TURN client -/

/-- `stun_codec::MessageClass` -/
inductive MessageClass where
  | request
  | indication
  | successResponse
  | errorResponse
  deriving DecidableEq, Repr

inductive StunMethod where
  | allocate
  | refresh
  | send
  | data
  | createPermission
  | other (number : Nat)
  deriving DecidableEq, Repr

/-- `TurnAttr`; those that no datagram is read for are `other`. -/
inductive TurnAttr where
  | xorPeerAddress (address : SocketAddr)
  | data (bytes : Bytes)
  | errorCode (code : Nat)
  | nonce (value : String)
  | other (type : Nat) (value : Bytes)
  deriving DecidableEq, Repr

namespace TurnAttr

def peerAddress? : TurnAttr → Option SocketAddr
  | .xorPeerAddress address => some address
  | _ => none

def data? : TurnAttr → Option Bytes
  | .data bytes => some bytes
  | _ => none

def errorCode? : TurnAttr → Option Nat
  | .errorCode code => some code
  | _ => none

def nonce? : TurnAttr → Option String
  | .nonce value => some value
  | _ => none

end TurnAttr

/-- `stun_codec::Message` -/
structure StunMessage where
  cls : MessageClass
  method : StunMethod
  txid : Bytes
  attributes : List TurnAttr
  deriving DecidableEq, Repr

/-- `get_attribute`: the first one of a kind. -/
def StunMessage.getAttribute {α : Type} (msg : StunMessage) (kind : TurnAttr → Option α) : Option α :=
  msg.attributes.findSome? kind

/-- What stun_codec makes of messages and bytes. A broken message counts as an error. -/
structure StunCodec where
  encode : StunMessage → Option Bytes
  decode : Bytes → Option StunMessage
  /-- `Data::new` takes it. -/
  takesData : Bytes → Bool

namespace StunCodec

variable (codec : StunCodec)

def sendIndicationMessage (txid : Bytes) (peer : SocketAddr) (payload : Bytes) : StunMessage :=
  ⟨.indication, .send, txid, [.xorPeerAddress peer, .data payload]⟩

/-- `encode_send_indication` -/
def encodeSendIndication (txid : Bytes) (peer : SocketAddr) (payload : Bytes) : Option Bytes :=
  if codec.takesData payload then codec.encode (sendIndicationMessage txid peer payload) else none

/-- `parse_from_server` -/
def parseFromServer (buf : Bytes) : Option TurnInbound :=
  match codec.decode buf with
  | none => none
  | some msg =>
    if msg.method = .data ∧ msg.cls = .indication then
      match msg.getAttribute TurnAttr.peerAddress?, msg.getAttribute TurnAttr.data? with
      | some peer, some payload => some (.data peer payload)
      | _, _ => none
    else if msg.cls = .errorResponse ∧ msg.getAttribute TurnAttr.errorCode? = some 438 then
      match msg.getAttribute TurnAttr.nonce? with
      | some nonce => some (.staleNonce nonce)
      | none => some .other
    else some .other

end StunCodec

/-- stun_codec, the check str0m makes of a datagram, and how the server reads Send
indications and writes Data indications. -/
structure Stun extends StunCodec where
  /-- `contents.try_into()` -/
  recognized : Bytes → Bool
  sendIndication : Bytes → Option (SocketAddr × Bytes)
  dataIndication : SocketAddr → Bytes → Bytes
  /-- The server reads what the client has encoded. -/
  reads_send : ∀ txid peer payload w, encode (StunCodec.sendIndicationMessage txid peer payload) = some w →
    sendIndication w = some (peer, payload)
  /-- The client decodes what the server has written. -/
  decodes_data : ∀ peer payload, ∃ msg, decode (dataIndication peer payload) = some msg ∧ msg.method = .data ∧
    msg.cls = .indication ∧ msg.getAttribute TurnAttr.peerAddress? = some peer ∧
    msg.getAttribute TurnAttr.data? = some payload

namespace Stun

variable (stun : Stun)

theorem send_read {txid : Bytes} {peer : SocketAddr} {payload w : Bytes}
    (encoded : stun.encodeSendIndication txid peer payload = some w) :
    stun.sendIndication w = some (peer, payload) := by
  unfold StunCodec.encodeSendIndication at encoded
  obtain ⟨-, encoded⟩ := Option.ite_none_right_eq_some.1 encoded
  exact stun.reads_send txid peer payload w encoded

theorem data_read (peer : SocketAddr) (payload : Bytes) :
    stun.parseFromServer (stun.dataIndication peer payload) = some (.data peer payload) := by
  obtain ⟨msg, decoded, method, cls, from_, data⟩ := stun.decodes_data peer payload
  simp only [StunCodec.parseFromServer, decoded, method, cls, and_self, if_true, from_, data]

end Stun

/-! ## The client -/

/-- `local_candidates`; `forceRelay` is whether `ZW_FORCE_RELAY` is set. -/
def localCandidates (forceRelay : Bool) (loopback : SocketAddr) (relay : Relay) : List SocketAddr :=
  (if forceRelay && relay.myRelayed.isSome then [] else [loopback]) ++ relay.myRelayed.toList

/-- The `Transmit` arm of `drain`: what the socket sends, and where to. -/
def Relay.send (stun : Stun) (relay : Relay) (txid : Bytes) (t : Datagram) : Option (SocketAddr × Bytes) :=
  match relay.turnServer, relay.myRelayed with
  | some ts, some mr =>
    if t.source = mr then (stun.encodeSendIndication txid t.destination t.contents).map fun w => (ts, w)
    else some (t.destination, t.contents)
  | _, _ => some (t.destination, t.contents)

/-- The length of the buffer of `recv_one`; reading a longer datagram is an error. -/
def RECV_BUFFER : Nat := 2048

/-- `recv_one`: what str0m is given, and what the TURN client does. -/
def Relay.recvOne (stun : Stun) (relay : Relay) (myAddr : SocketAddr) (turn : Option TurnClient) (d : Datagram) :
    Option Datagram × Option TurnClient × Option Refresh :=
  let handle (source destination : SocketAddr) (contents : Bytes) : Option Datagram :=
    if stun.recognized contents then some ⟨source, destination, contents⟩ else none
  if RECV_BUFFER < d.contents.length then (none, turn, none)
  else
    match relay.turnServer, relay.myRelayed with
    | some ts, some mr =>
      if d.source = ts then
        match stun.parseFromServer d.contents with
        | some (.data peer payload) => (handle peer mr payload, turn, none)
        | some inbound => (none, Core.recvOne turn inbound)
        | none => (none, turn, none)
      else (handle d.source myAddr d.contents, turn, none)
    | _, _ => (handle d.source myAddr d.contents, turn, none)

/-! ## The network around it -/

inductive TunnelEnd where
  | host
  | console
  deriving DecidableEq, Repr

inductive Origin where
  | peer (e : TunnelEnd)
  | server
  | stranger
  deriving DecidableEq, Repr

structure Addresses where
  turnServer : SocketAddr
  /-- The relayed address of a peer's allocation. -/
  relayed : TunnelEnd → Option SocketAddr
  /-- `my_addr` -/
  loopback : TunnelEnd → SocketAddr
  /-- The address a peer's socket has towards a destination. -/
  mapped : TunnelEnd → SocketAddr → SocketAddr

namespace Addresses

variable (net : Addresses)

/-- `a` is an address of the sender towards `destination`. -/
def Uses (destination : SocketAddr) (a : SocketAddr) : Origin → Prop
  | .peer e => a = net.mapped e destination ∨ net.relayed e = some a
  | .server => a = net.turnServer
  | .stranger => (∀ e, a ≠ net.mapped e destination ∧ net.relayed e ≠ some a) ∧ a ≠ net.turnServer

/-- What `setup_relay` leaves behind. -/
def relay (e : TunnelEnd) : Relay :=
  match net.relayed e with
  | some r => ⟨some net.turnServer, some r⟩
  | none => {}

/-- What `a` of str0m's is to the network, towards `other`. -/
def outside (e : TunnelEnd) (a other : SocketAddr) : SocketAddr :=
  if net.relayed e = some a then a else net.mapped e other

end Addresses

/-- Addresses of which nobody uses another's. -/
structure Internet extends Addresses where
  mapped_inj : ∀ {d e f}, mapped e d = mapped f d → e = f
  mapped_server : ∀ e d, mapped e d ≠ turnServer
  relayed_inj : ∀ {e f r}, relayed e = some r → relayed f = some r → e = f
  relayed_server : ∀ e, relayed e ≠ some turnServer
  relayed_mapped : ∀ e f d, relayed e ≠ some (mapped f d)
  relayed_loopback : ∀ e, relayed e ≠ some (loopback e)

/-- A datagram's source says who sent it. -/
theorem Internet.sole (net : Internet) {d a : SocketAddr} {who who' : Origin} (uses : net.Uses d a who)
    (uses' : net.Uses d a who') : who = who' := by
  cases who with
  | peer e =>
    cases who' with
    | peer f =>
      refine congrArg Origin.peer ?_
      rcases uses with rfl | alloc <;> rcases uses' with same | alloc'
      · exact net.mapped_inj same
      · exact absurd alloc' (net.relayed_mapped f e d)
      · exact absurd (same ▸ alloc) (net.relayed_mapped e f d)
      · exact net.relayed_inj alloc alloc'
    | server =>
      cases uses'
      rcases uses with same | alloc
      · exact absurd same.symm (net.mapped_server e d)
      · exact absurd alloc (net.relayed_server e)
    | stranger => exact (uses.elim (uses'.1 e).1 (uses'.1 e).2).elim
  | server =>
    cases uses
    cases who' with
    | peer f =>
      rcases uses' with same | alloc
      · exact absurd same.symm (net.mapped_server f d)
      · exact absurd alloc (net.relayed_server f)
    | server => rfl
    | stranger => exact absurd rfl uses'.2
  | stranger =>
    cases who' with
    | peer f => exact (uses'.elim (uses.1 f).1 (uses.1 f).2).elim
    | server => exact absurd uses' uses.2
    | stranger => rfl

/-! ## The TURN server -/

/-- All datagrams sent so far, any of which may arrive any number of times, and the
permissions of the two allocations. -/
structure Tunnel where
  wire : List Datagram := []
  permitted : TunnelEnd → List String := fun _ => []

/-- What the server makes of a datagram for the allocation of `e`. -/
def Tunnel.passes (stun : Stun) (net : Addresses) (s : Tunnel) (d : Datagram) (e : TunnelEnd) : Option Datagram :=
  match net.relayed e with
  | none => none
  | some r =>
    if d.destination = net.turnServer ∧ d.source = net.mapped e net.turnServer then
      match stun.sendIndication d.contents with
      | some (peer, payload) => if peer.ip ∈ s.permitted e then some ⟨r, peer, payload⟩ else none
      | none => none
    else if d.destination = r ∧ d.source.ip ∈ s.permitted e then
      some ⟨net.turnServer, net.mapped e net.turnServer, stun.dataIndication d.source d.contents⟩
    else none

inductive TunnelEvent where
  /-- str0m of `e` sends, and `drain` takes it. -/
  | transmit (e : TunnelEnd) (txid : Bytes) (t : Datagram)
  /-- A request to the server, and an answer of the server. -/
  | ask (e : TunnelEnd) (request : Bytes)
  | answer (e : TunnelEnd) (reply : Bytes)
  | stranger (d : Datagram)
  /-- `create_permission` takes effect, or ends. -/
  | permit (e : TunnelEnd) (ip : String)
  | expire (e : TunnelEnd) (ip : String)
  /-- The server reads a datagram. -/
  | forward (d : Datagram)
  /-- `recv_one` of `e` reads a datagram. -/
  | receive (e : TunnelEnd) (turn : Option TurnClient) (d : Datagram)

namespace Tunnel

variable (stun : Stun) (net : Addresses) (forceRelay : TunnelEnd → Bool)

def put (s : Tunnel) (ds : List Datagram) : Tunnel := { s with wire := s.wire ++ ds }

def step (s : Tunnel) : TunnelEvent → Tunnel
  | .transmit e txid t =>
    s.put (((net.relay e).send stun txid t).toList.map fun w => ⟨net.mapped e w.1, w.1, w.2⟩)
  | .ask e request => s.put [⟨net.mapped e net.turnServer, net.turnServer, request⟩]
  | .answer e reply => s.put [⟨net.turnServer, net.mapped e net.turnServer, reply⟩]
  | .stranger d => s.put [d]
  | .permit e ip => { s with permitted := Function.update s.permitted e (ip :: s.permitted e) }
  | .expire e ip => { s with permitted := Function.update s.permitted e ((s.permitted e).filter (· ≠ ip)) }
  | .forward d => s.put ([TunnelEnd.host, .console].filterMap (s.passes stun net d))
  | .receive .. => s

/-- str0m sends from its candidates, and no datagram of its own is a Send indication. -/
def admits (s : Tunnel) : TunnelEvent → Prop
  | .transmit e _ t =>
    t.source ∈ localCandidates (forceRelay e) (net.loopback e) (net.relay e) ∧ stun.sendIndication t.contents = none
  | .ask _ request => stun.sendIndication request = none
  | .answer _ reply => ∀ peer payload, stun.parseFromServer reply ≠ some (.data peer payload)
  | .stranger d => net.Uses d.destination d.source .stranger
  | .permit .. | .expire .. => True
  | .forward d => d ∈ s.wire
  | .receive e _ d => d ∈ s.wire ∧ d.destination = net.mapped e d.source

end Tunnel

def relayTunnel (stun : Stun) (net : Addresses) (forceRelay : TunnelEnd → Bool) : System Tunnel TunnelEvent where
  init s := s = {}
  enabled := Tunnel.admits stun net forceRelay
  step := Tunnel.step stun net

/-! ## A plain network -/

inductive NetworkEvent where
  | transmit (who : Origin) (d : Datagram)
  | receive (e : TunnelEnd) (d : Datagram)
  deriving DecidableEq, Repr

/-- Datagrams are lost, repeated and reordered, and neither made up nor changed: the state is
what has been sent. -/
def plainNetwork (net : Addresses) : System (List Datagram) NetworkEvent where
  init sent := sent = []
  enabled
    | _, .transmit who d => net.Uses d.destination d.source who
    | sent, .receive e d => d ∈ sent ∧ (d.destination = net.mapped e d.source ∨ net.relayed e = some d.destination)
  step
    | sent, .transmit _ d => d :: sent
    | sent, .receive _ _ => sent

/-- What an event is to the str0m instances. -/
def TunnelEvent.look (stun : Stun) (net : Addresses) : TunnelEvent → List NetworkEvent
  | .transmit e _ t => [.transmit (.peer e) { t with source := net.outside e t.source t.destination }]
  | .ask e request => [.transmit (.peer e) ⟨net.mapped e net.turnServer, net.turnServer, request⟩]
  | .answer e reply => [.transmit .server ⟨net.turnServer, net.mapped e net.turnServer, reply⟩]
  | .stranger d => [.transmit .stranger d]
  | .permit .. | .expire .. | .forward _ => []
  | .receive e turn d => ((net.relay e).recvOne stun (net.loopback e) turn d).1.toList.map fun r =>
    .receive e { r with destination := net.outside e r.destination r.source }

section Spec

variable {stun : Stun} {net : Internet} {forceRelay : TunnelEnd → Bool} {s : Tunnel} {e : TunnelEnd} {d : Datagram}

theorem Addresses.outside_loopback (other : SocketAddr) :
    net.outside e (net.loopback e) other = net.mapped e other := if_neg (net.relayed_loopback e)

theorem Addresses.outside_relayed {r : SocketAddr} (alloc : net.relayed e = some r) (other : SocketAddr) :
    net.outside e r other = r := if_pos alloc

theorem mem_localCandidates {a : SocketAddr} (mem : a ∈ localCandidates (forceRelay e) (net.loopback e) (net.relay e)) :
    net.relayed e = some a ∨ a = net.loopback e ∧ (forceRelay e = true → net.relayed e = none) := by
  unfold localCandidates Addresses.relay at mem
  cases alloc : net.relayed e with
  | none =>
    simp only [alloc, Option.isSome_none, Bool.and_false, Bool.false_eq_true, if_false, Option.toList_none,
      List.append_nil, List.mem_singleton] at mem
    exact .inr ⟨mem, fun _ => rfl⟩
  | some r =>
    simp only [alloc, Option.isSome_some, Bool.and_true, Option.toList_some, List.mem_append, List.mem_singleton] at mem
    rcases mem with direct | rfl
    · split at direct
      · cases direct
      · rename_i free
        exact .inr ⟨List.mem_singleton.1 direct, fun forced => absurd forced free⟩
    · exact .inl rfl

/-- What `drain` makes of a datagram. -/
theorem send_cases {txid : Bytes} {t : Datagram} {w : SocketAddr × Bytes}
    (sent : (net.relay e).send stun txid t = some w) :
    (net.relayed e = some t.source ∧ w.1 = net.turnServer ∧
        stun.sendIndication w.2 = some (t.destination, t.contents)) ∨
      net.relayed e ≠ some t.source ∧ w = (t.destination, t.contents) := by
  unfold Relay.send Addresses.relay at sent
  cases alloc : net.relayed e with
  | none =>
    simp only [alloc, Option.some.injEq] at sent
    exact .inr ⟨Option.some_ne_none _ |>.symm, sent.symm⟩
  | some r =>
    simp only [alloc] at sent
    split at sent
    · rename_i own
      obtain ⟨bytes, encoded, rfl⟩ := Option.map_eq_some_iff.1 sent
      exact .inl ⟨congrArg some own.symm, rfl, stun.send_read encoded⟩
    · rename_i other
      refine .inr ⟨fun own => other (Option.some.inj own).symm, (Option.some.inj sent).symm⟩

/-- What `recv_one` makes of a datagram. -/
theorem recvOne_cases {turn : Option TurnClient} {r : Datagram}
    (given : ((net.relay e).recvOne stun (net.loopback e) turn d).1 = some r) :
    (net.relayed e = some r.destination ∧ d.source = net.turnServer ∧
        stun.parseFromServer d.contents = some (.data r.source r.contents)) ∨
      (net.relayed e = none ∨ d.source ≠ net.turnServer) ∧ r = ⟨d.source, net.loopback e, d.contents⟩ := by
  unfold Relay.recvOne Addresses.relay at given
  dsimp only at given
  split at given
  · cases given
  · cases alloc : net.relayed e with
    | none =>
      simp only [alloc, Option.ite_none_right_eq_some, Option.some.injEq] at given
      exact .inr ⟨.inl rfl, given.2.symm⟩
    | some mr =>
      simp only [alloc] at given
      split at given
      · rename_i server
        split at given
        · rename_i peer payload parsed
          simp only [Option.ite_none_right_eq_some, Option.some.injEq] at given
          obtain ⟨-, rfl⟩ := given
          exact .inl ⟨rfl, server, parsed⟩
        · cases given
        · cases given
      · rename_i direct
        simp only [Option.ite_none_right_eq_some, Option.some.injEq] at given
        exact .inr ⟨.inr direct, given.2.symm⟩

/-- What the server makes of a datagram. -/
theorem passes_cases {d' : Datagram} (passed : s.passes stun net.toAddresses d e = some d') :
    ∃ r, net.relayed e = some r ∧
      ((d.destination = net.turnServer ∧ d.source = net.mapped e net.turnServer ∧
          ∃ peer payload, stun.sendIndication d.contents = some (peer, payload) ∧ d' = ⟨r, peer, payload⟩) ∨
        d.destination = r ∧
          d' = ⟨net.turnServer, net.mapped e net.turnServer, stun.dataIndication d.source d.contents⟩) := by
  unfold Tunnel.passes at passed
  cases alloc : net.relayed e with
  | none =>
    simp only [alloc] at passed
    cases passed
  | some r =>
    simp only [alloc] at passed
    refine ⟨r, rfl, ?_⟩
    split at passed
    · rename_i asked
      split at passed
      · rename_i peer payload read
        simp only [Option.ite_none_right_eq_some, Option.some.injEq] at passed
        exact .inl ⟨asked.1, asked.2, peer, payload, read, passed.2.symm⟩
      · cases passed
    · simp only [Option.ite_none_right_eq_some, Option.some.injEq] at passed
      exact .inr ⟨passed.1.1, passed.2.symm⟩

/-! ## What is on the wire -/

/-- A datagram on the wire stands for one that has been sent: it is this one, or it has this
one inside, on its way between a client and the server. -/
inductive Carries (stun : Stun) (net : Internet) (sent : List Datagram) : Datagram → Prop where
  | plain {d : Datagram} : d ∈ sent →
      (d.source = net.turnServer → ∀ peer payload, stun.parseFromServer d.contents ≠ some (.data peer payload)) →
      (∀ e, d.destination = net.turnServer → d.source = net.mapped e net.turnServer →
        stun.sendIndication d.contents = none) → Carries stun net sent d
  | toServer {e : TunnelEnd} {r : SocketAddr} {w : Bytes} {peer : SocketAddr} {payload : Bytes} :
      net.relayed e = some r →
      stun.sendIndication w = some (peer, payload) → ⟨r, peer, payload⟩ ∈ sent →
      Carries stun net sent ⟨net.mapped e net.turnServer, net.turnServer, w⟩
  | fromServer {e : TunnelEnd} {r peer : SocketAddr} {payload : Bytes} : net.relayed e = some r →
      ⟨peer, r, payload⟩ ∈ sent →
      Carries stun net sent ⟨net.turnServer, net.mapped e net.turnServer, stun.dataIndication peer payload⟩

section Wire

variable {sent : List Datagram}

theorem Carries.more (h : Carries stun net sent d) {sent' : List Datagram} (more : ∀ x ∈ sent, x ∈ sent') :
    Carries stun net sent' d := by
  cases h with
  | plain mem fromServer toServer => exact .plain (more _ mem) fromServer toServer
  | toServer alloc read mem => exact .toServer alloc read (more _ mem)
  | fromServer alloc mem => exact .fromServer alloc (more _ mem)

theorem Internet.relayed_ne_server {r : SocketAddr} (alloc : net.relayed e = some r) : r ≠ net.turnServer := by
  rintro rfl
  exact net.relayed_server e alloc

theorem Internet.relayed_ne_mapped {r : SocketAddr} (alloc : net.relayed e = some r) (e' : TunnelEnd) (a : SocketAddr) :
    r ≠ net.mapped e' a := by
  rintro rfl
  exact net.relayed_mapped e e' a alloc

/-- What the server passes on carries what it was brought. -/
theorem Carries.passes (h : Carries stun net sent d) {d' : Datagram}
    (passed : s.passes stun net.toAddresses d e = some d') : Carries stun net sent d' := by
  obtain ⟨r, alloc, ⟨asked, client, peer, payload, read, rfl⟩ | ⟨here, rfl⟩⟩ := passes_cases passed
  · -- a Send indication of `e`
    have mem : ⟨r, peer, payload⟩ ∈ sent := by
      cases h with
      | plain _ _ unread =>
        rw [unread e asked client] at read
        cases read
      | toServer alloc' read' mem =>
        cases net.mapped_inj client
        cases alloc.symm.trans alloc'
        cases read.symm.trans read'
        exact mem
      | fromServer => exact absurd asked (net.mapped_server _ _)
    refine .plain mem (fun same => absurd same (net.relayed_ne_server alloc)) ?_
    intro e' _ own
    exact absurd own (net.relayed_ne_mapped alloc e' _)
  · -- a datagram to the relayed address of `e`
    cases h with
    | plain mem => exact .fromServer alloc (here ▸ mem)
    | toServer => exact absurd here.symm (net.relayed_ne_server alloc)
    | fromServer => exact absurd here.symm (net.relayed_ne_mapped alloc _ _)

/-- What a peer is given was sent to it. -/
theorem Carries.received (h : Carries stun net sent d) (here : d.destination = net.mapped e d.source)
    {turn : Option TurnClient} {r : Datagram}
    (given : ((net.relay e).recvOne stun (net.loopback e) turn d).1 = some r) :
    { r with destination := net.outside e r.destination r.source } ∈ sent ∧
      (net.outside e r.destination r.source = net.mapped e r.source ∨
        net.relayed e = some (net.outside e r.destination r.source)) := by
  rcases recvOne_cases given with ⟨alloc, server, parsed⟩ | ⟨direct, rfl⟩
  · rw [Addresses.outside_relayed alloc]
    refine ⟨?_, .inr alloc⟩
    cases h with
    | plain _ unparsed => exact absurd parsed (unparsed server _ _)
    | toServer => exact absurd server (net.mapped_server _ _)
    | fromServer alloc' mem =>
      cases net.mapped_inj here
      cases alloc.symm.trans alloc'
      rw [stun.data_read] at parsed
      cases parsed
      exact mem
  · rw [Addresses.outside_loopback]
    refine ⟨?_, .inl rfl⟩
    cases h with
    | plain mem =>
      dsimp only
      rw [← here]
      exact mem
    | toServer => exact absurd here.symm (net.mapped_server _ _)
    | fromServer alloc' =>
      cases net.mapped_inj here
      rcases direct with none_ | other
      · cases none_.symm.trans alloc'
      · exact absurd rfl other

end Wire

/-- Everything on the wire carries something sent. -/
def Tunnel.StandsFor (stun : Stun) (net : Internet) (s : Tunnel) (sent : List Datagram) : Prop :=
  ∀ d ∈ s.wire, Carries stun net sent d

section Simulation

variable {sent : List Datagram}

theorem Tunnel.StandsFor.put (h : s.StandsFor stun net sent) {ds : List Datagram} {sent' : List Datagram}
    (more : ∀ x ∈ sent, x ∈ sent') (new : ∀ d ∈ ds, Carries stun net sent' d) :
    (s.put ds).StandsFor stun net sent' := by
  intro d mem
  rcases List.mem_append.1 mem with old | mem
  · exact (h d old).more more
  · exact new d mem

theorem tunnel_simulates (stun : Stun) (net : Internet) (forceRelay : TunnelEnd → Bool) :
    (relayTunnel stun net.toAddresses forceRelay).Simulates (plainNetwork net.toAddresses)
      (fun _ e => e.look stun net.toAddresses) (Tunnel.StandsFor stun net) := by
  constructor
  case admitted =>
    intro s sent event related now
    cases event with
    | transmit e txid t =>
      refine ⟨?_, trivial⟩
      show net.outside e t.source t.destination = _ ∨ _
      rcases mem_localCandidates now.1 with alloc | ⟨direct, -⟩
      · rw [Addresses.outside_relayed alloc]
        exact .inr alloc
      · rw [direct, Addresses.outside_loopback]
        exact .inl rfl
    | ask e request => exact ⟨.inl rfl, trivial⟩
    | answer e reply => exact ⟨rfl, trivial⟩
    | stranger d => exact ⟨now, trivial⟩
    | permit | expire | forward => trivial
    | receive e turn d =>
      show (plainNetwork net.toAddresses).Valid sent (Option.toList _ |>.map _)
      cases given : ((net.relay e).recvOne stun (net.loopback e) turn d).1 with
      | none => trivial
      | some r => exact ⟨(related d now.1).received now.2 given, trivial⟩
  case state =>
    intro s sent event related now
    have kept (d : Datagram) : ∀ x ∈ sent, x ∈ d :: sent := fun x mem => List.mem_cons_of_mem _ mem
    cases event with
    | transmit e txid t =>
      refine related.put (kept _) ?_
      intro d mem
      obtain ⟨w, out, rfl⟩ := List.mem_map.1 mem
      rcases send_cases (Option.mem_toList.1 out) with ⟨alloc, there, read⟩ | ⟨other, rfl⟩
      · rw [there]
        refine .toServer alloc read ?_
        rw [← Addresses.outside_relayed alloc t.destination]
        exact List.mem_cons_self
      · have direct : net.outside e t.source t.destination = net.mapped e t.destination := if_neg other
        refine .plain ?_ (fun same => absurd same (net.mapped_server _ _)) fun _ _ _ => now.2
        show ⟨net.mapped e t.destination, t.destination, t.contents⟩ ∈
          (⟨net.outside e t.source t.destination, t.destination, t.contents⟩ : Datagram) :: sent
        rw [direct]
        exact List.mem_cons_self
    | ask e request =>
      refine related.put (kept _) (List.forall_mem_singleton.2 ?_)
      exact .plain List.mem_cons_self (fun same => absurd same (net.mapped_server _ _)) fun _ _ _ => now
    | answer e reply =>
      refine related.put (kept _) (List.forall_mem_singleton.2 ?_)
      refine .plain List.mem_cons_self (fun _ => now) fun e' same => absurd same (net.mapped_server _ _)
    | stranger d =>
      refine related.put (kept _) (List.forall_mem_singleton.2 ?_)
      refine .plain List.mem_cons_self (fun same => absurd same now.2) fun e' there own => ?_
      exact absurd (there ▸ own) (now.1 e').1
    | permit | expire => exact related
    | receive e turn d =>
      show Tunnel.StandsFor stun net s (System.after _ sent (Option.toList _ |>.map _))
      cases ((net.relay e).recvOne stun (net.loopback e) turn d).1 with
      | none => exact related
      | some r => exact related
    | forward d =>
      refine related.put (fun _ mem => mem) ?_
      intro d' mem
      obtain ⟨e, -, passed⟩ := List.mem_filterMap.1 mem
      exact (related d now).passes passed

end Simulation

/-! ## From one relayed address to the other -/

/-- The way of a datagram from `e` to `f`, their server in between. -/
def delivery (stun : Stun) (net : Addresses) (e f : TunnelEnd) (txid w : Bytes) (turn : Option TurnClient)
    (t : Datagram) : List TunnelEvent :=
  [.transmit e txid t, .forward ⟨net.mapped e net.turnServer, net.turnServer, w⟩, .forward t,
    .receive f turn ⟨net.turnServer, net.mapped f net.turnServer, stun.dataIndication t.source t.contents⟩]

/-- The datagram goes from relayed address to relayed address, and both sides permit it. -/
structure Tunnel.Open (stun : Stun) (net : Addresses) (s : Tunnel) (e f : TunnelEnd) (t : Datagram) : Prop where
  source : net.relayed e = some t.source
  destination : net.relayed f = some t.destination
  sends : t.destination.ip ∈ s.permitted e
  accepts : t.source.ip ∈ s.permitted f
  recognized : stun.recognized t.contents = true
  own : stun.sendIndication t.contents = none
  fits : (stun.dataIndication t.source t.contents).length ≤ RECV_BUFFER

section Delivery

variable {f : TunnelEnd} {t : Datagram} {txid w : Bytes}

theorem Addresses.relay_of_relayed {net : Addresses} {r : SocketAddr} (alloc : net.relayed e = some r) :
    net.relay e = ⟨some net.turnServer, some r⟩ := by
  simp only [relay, alloc]

theorem send_relayed (alloc : net.relayed e = some t.source)
    (encoded : stun.encodeSendIndication txid t.destination t.contents = some w) :
    (net.relay e).send stun txid t = some (net.turnServer, w) := by
  simp only [Addresses.relay_of_relayed alloc, Relay.send, if_true, encoded, Option.map_some]

namespace Tunnel.Open

variable (o : s.Open stun net.toAddresses e f t)
include o

/-- Out of the sender's tunnel. -/
theorem leaves (read : stun.sendIndication w = some (t.destination, t.contents)) :
    s.passes stun net.toAddresses ⟨net.mapped e net.turnServer, net.turnServer, w⟩ e = some t := by
  simp only [Tunnel.passes, o.source, and_self, if_true, read, o.sends]

/-- Into the receiver's. -/
theorem enters : s.passes stun net.toAddresses t f =
    some ⟨net.turnServer, net.mapped f net.turnServer, stun.dataIndication t.source t.contents⟩ := by
  have elsewhere : ¬ (t.destination = net.turnServer ∧ t.source = net.mapped f net.turnServer) := fun at_ =>
    net.relayed_ne_server o.destination at_.1
  simp only [Tunnel.passes, o.destination, if_neg elsewhere, o.accepts, and_self, if_true]

theorem arrives (turn : Option TurnClient) : ((net.relay f).recvOne stun (net.loopback f) turn
    ⟨net.turnServer, net.mapped f net.turnServer, stun.dataIndication t.source t.contents⟩).1 = some t := by
  have fits : ¬ RECV_BUFFER < (stun.dataIndication t.source t.contents).length := Nat.not_lt.2 o.fits
  simp only [Addresses.relay_of_relayed o.destination, Relay.recvOne, if_neg fits, if_true, stun.data_read,
    o.recognized]

/-- The delivery is a run, and to the str0m instances it is a send and a receive. -/
theorem delivered (forceRelay : TunnelEnd → Bool) (turn : Option TurnClient)
    (encoded : stun.encodeSendIndication txid t.destination t.contents = some w) :
    (relayTunnel stun net.toAddresses forceRelay).Valid s (delivery stun net.toAddresses e f txid w turn t) ∧
      (relayTunnel stun net.toAddresses forceRelay).image (fun _ e => e.look stun net.toAddresses) s
        (delivery stun net.toAddresses e f txid w turn t) = [.transmit (.peer e) t, .receive f t] := by
  have all (e : TunnelEnd) : e ∈ [TunnelEnd.host, .console] := by cases e <;> decide
  have candidate : t.source ∈ localCandidates (forceRelay e) (net.loopback e) (net.relay e) := by
    rw [Addresses.relay_of_relayed o.source]
    exact List.mem_append_right _ (List.mem_singleton.2 rfl)
  constructor
  · refine ⟨⟨candidate, o.own⟩, ?_, ?_, ⟨?_, rfl⟩, trivial⟩
    · apply List.mem_append_right
      rw [send_relayed o.source encoded]
      exact List.mem_singleton.2 rfl
    · apply List.mem_append_right
      exact List.mem_filterMap.2 ⟨e, all e, o.leaves (stun.send_read encoded)⟩
    · apply List.mem_append_right
      exact List.mem_filterMap.2 ⟨f, all f, o.enters⟩
  · simp only [delivery, System.image, TunnelEvent.look, Addresses.outside_relayed o.source, o.arrives,
      Addresses.outside_relayed o.destination, Option.toList_some, List.map_cons, List.map_nil, List.nil_append,
      List.cons_append]

end Tunnel.Open

end Delivery

/-- The str0m instances of two peers see a plain network, whatever of their datagrams goes
through the relay; and what both allocations permit comes through. -/
theorem tunnel_is_network (stun : Stun) (net : Internet) (forceRelay : TunnelEnd → Bool) {es : List TunnelEvent}
    (valid : (relayTunnel stun net.toAddresses forceRelay).Valid {} es) :
    (plainNetwork net.toAddresses).Valid []
        ((relayTunnel stun net.toAddresses forceRelay).image (fun _ e => e.look stun net.toAddresses) {} es) ∧
      ∀ e f t txid w turn,
        ((relayTunnel stun net.toAddresses forceRelay).after {} es).Open stun net.toAddresses e f t →
        stun.encodeSendIndication txid t.destination t.contents = some w →
        (relayTunnel stun net.toAddresses forceRelay).Valid {} (es ++ delivery stun net.toAddresses e f txid w turn t) ∧
          (relayTunnel stun net.toAddresses forceRelay).image (fun _ e => e.look stun net.toAddresses)
            ((relayTunnel stun net.toAddresses forceRelay).after {} es)
            (delivery stun net.toAddresses e f txid w turn t) = [.transmit (.peer e) t, .receive f t] := by
  constructor
  · exact (tunnel_simulates stun net forceRelay).valid_image (fun d mem => absurd mem List.not_mem_nil) valid
  · intro e f t txid w turn o encoded
    have delivered := o.delivered forceRelay turn encoded
    exact ⟨System.allSteps_append.2 ⟨valid, delivered.1⟩, delivered.2⟩

/-- Where the relay is forced, the socket talks to the server only. -/
theorem forced_relay_hides (reached : (relayTunnel stun net.toAddresses forceRelay).Reachable s)
    (forced : forceRelay e = true) {r : SocketAddr} (alloc : net.relayed e = some r) (mem : d ∈ s.wire)
    (own : d.source = net.mapped e d.destination) : d.destination = net.turnServer := by
  refine reached.invariant (P := fun s => ∀ d ∈ s.wire, d.source = net.mapped e d.destination →
    d.destination = net.turnServer) ?_ ?_ d mem own
  · rintro s rfl d mem
    cases mem
  intro s event _ ih now d mem own
  have new {ds : List Datagram} (mem : d ∈ (s.put ds).wire) (there : d ∈ ds → d.destination = net.turnServer) :
      d.destination = net.turnServer := (List.mem_append.1 mem).elim (fun old => ih d old own) there
  cases event with
  | transmit e' txid t =>
    refine new mem fun mem => ?_
    obtain ⟨w, out, rfl⟩ := List.mem_map.1 mem
    cases net.mapped_inj own
    rcases send_cases (Option.mem_toList.1 out) with ⟨-, there, -⟩ | ⟨other, rfl⟩
    · exact there
    · rcases mem_localCandidates now.1 with alloc' | ⟨-, free⟩
      · exact absurd alloc' other
      · cases alloc.symm.trans (free forced)
  | ask e' request => exact new mem fun mem => by cases List.mem_singleton.1 mem; rfl
  | answer e' reply =>
    refine new mem fun mem => ?_
    cases List.mem_singleton.1 mem
    exact absurd own.symm (net.mapped_server _ _)
  | stranger d' =>
    refine new mem fun mem => ?_
    cases List.mem_singleton.1 mem
    exact absurd own (now.1 e).1
  | permit | expire | receive => exact ih d mem own
  | forward d' =>
    refine new mem fun mem => ?_
    obtain ⟨e', -, passed⟩ := List.mem_filterMap.1 mem
    obtain ⟨r', alloc', ⟨-, -, peer, payload, -, rfl⟩ | ⟨-, rfl⟩⟩ := passes_cases passed
    · exact absurd own (net.relayed_ne_mapped alloc' _ _)
    · exact absurd own.symm (net.mapped_server _ _)

end Spec

/-! ## Two peers of one server -/

/-- A message is a tag, the length of the address in unary, the address and the payload. -/
def sampleMessage (tag : UInt8) (peer : SocketAddr) (payload : Bytes) : Bytes :=
  tag :: (List.replicate (utf8 peer).length 1 ++ 0 :: (utf8 peer ++ payload))

def sampleRead (tag : UInt8) : Bytes → Option (SocketAddr × Bytes)
  | [] => none
  | first :: rest =>
    if first = tag then
      let length := (rest.takeWhile (· = 1)).length
      let body := rest.drop (length + 1)
      (String.fromUTF8? ⟨(body.take length).toArray⟩).map fun peer => (peer, body.drop length)
    else none

theorem sampleRead_message (tag : UInt8) (peer : SocketAddr) (payload : Bytes) :
    sampleRead tag (sampleMessage tag peer payload) = some (peer, payload) := by
  have unary (n : Nat) (rest : Bytes) : ((List.replicate n 1 ++ 0 :: rest).takeWhile (· = 1)).length = n := by
    induction n with
    | zero => rfl
    | succ n ih =>
      rw [List.replicate_succ, List.cons_append, List.takeWhile_cons_of_pos (by decide), List.length_cons, ih]
  have body (n : Nat) (rest : Bytes) : (List.replicate n 1 ++ 0 :: rest).drop (n + 1) = rest := by
    rw [List.drop_append, List.length_replicate, List.drop_eq_nil_of_le (by simp), Nat.add_sub_cancel_left]
    rfl
  have text : String.fromUTF8? ⟨(utf8 peer).toArray⟩ = some peer := by
    show String.fromUTF8? ⟨peer.toByteArray.data.toList.toArray⟩ = some peer
    rw [Array.toArray_toList]
    exact dif_pos peer.isValidUTF8
  simp only [sampleRead, sampleMessage, if_true, unary, body, List.take_left, List.drop_left, text, Option.map_some]

def sampleStun : Stun where
  encode
    | ⟨.indication, .send, _, [.xorPeerAddress peer, .data payload]⟩ => some (sampleMessage 0 peer payload)
    | _ => none
  decode w := (sampleRead 1 w).map fun read =>
    ⟨.indication, .data, [], [.xorPeerAddress read.1, .data read.2]⟩
  takesData _ := true
  recognized _ := true
  sendIndication := sampleRead 0
  dataIndication := sampleMessage 1
  reads_send := by
    rintro txid peer payload w ⟨⟩
    exact sampleRead_message 0 peer payload
  decodes_data peer payload := by
    rw [sampleRead_message, Option.map_some]
    exact ⟨_, rfl, rfl, rfl, rfl, rfl⟩

def sampleSocket : TunnelEnd → SocketAddr
  | .host => "198.51.100.1:4000"
  | .console => "198.51.100.2:4000"

def sampleRelayed : TunnelEnd → SocketAddr
  | .host => "203.0.113.7:50000"
  | .console => "203.0.113.7:50001"

def sampleInternet : Internet where
  turnServer := "203.0.113.7:3478"
  relayed e := some (sampleRelayed e)
  loopback _ := "127.0.0.1:4000"
  mapped e _ := sampleSocket e
  mapped_inj {_ e f} := show sampleSocket e = sampleSocket f → e = f by cases e <;> cases f <;> decide
  mapped_server e _ := show sampleSocket e ≠ _ by cases e <;> decide
  relayed_inj {e f r} alloc alloc' := by
    have same : sampleRelayed e = sampleRelayed f := (Option.some.inj alloc).trans (Option.some.inj alloc').symm
    revert same
    cases e <;> cases f <;> decide
  relayed_server e := by cases e <;> decide
  relayed_mapped e f _ := show some (sampleRelayed e) ≠ some (sampleSocket f) by cases e <;> cases f <;> decide
  relayed_loopback e := by cases e <;> decide

/-- A datagram of the host's str0m to the console's, after both have permitted the other. -/
theorem tunnel_is_network_permitted :
    let permits : List TunnelEvent := [.permit .host "203.0.113.7", .permit .console "203.0.113.7"]
    let t : Datagram := ⟨"203.0.113.7:50000", "203.0.113.7:50001", [22, 254, 253]⟩
    let tunnel := relayTunnel sampleStun sampleInternet.toAddresses fun _ => true
    tunnel.image (fun _ e => e.look sampleStun sampleInternet.toAddresses) (tunnel.after {} permits)
        (delivery sampleStun sampleInternet.toAddresses .host .console []
          (sampleMessage 0 "203.0.113.7:50001" [22, 254, 253]) none t) =
      [.transmit (.peer .host) t, .receive .console t] := by
  intro permits t tunnel
  have valid : tunnel.Valid {} permits := ⟨trivial, trivial, trivial⟩
  refine ((tunnel_is_network sampleStun sampleInternet (fun _ => true) valid).2 .host .console t [] _ none ?_ rfl).2
  exact
    { source := rfl
      destination := rfl
      sends := by decide +kernel
      accepts := by decide +kernel
      recognized := rfl
      own := rfl
      fits := by decide +kernel }

/-- What the host's socket sends while its relay is forced. -/
theorem forced_relay_hides_sent :
    let t : Datagram := ⟨"203.0.113.7:50000", "203.0.113.7:50001", [22, 254, 253]⟩
    let tunnel := relayTunnel sampleStun sampleInternet.toAddresses fun _ => true
    ∃ d ∈ (tunnel.after {} [.transmit .host [] t]).wire,
      d.source = sampleSocket .host ∧ d.destination = "203.0.113.7:3478" := by
  intro t tunnel
  have reached : tunnel.Reachable (tunnel.after {} [.transmit .host [] t]) :=
    System.Reachable.after (.init rfl) ⟨⟨List.mem_cons_self, by decide +kernel⟩, trivial⟩
  exact ⟨_, List.mem_cons_self, rfl, forced_relay_hides (e := TunnelEnd.host) reached rfl rfl List.mem_cons_self rfl⟩

end ZortilWatch.Core
