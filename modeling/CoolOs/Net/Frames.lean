import CoolOs.Net.Handlers
import Mathlib.Data.List.Forall2

namespace CoolOs.Net

open Checked Checked.Code List

/-!
# Received frames do not crash the kernel

Whatever the frame and the state of the stack are, no handler faults: each offset is
behind a check of the length it needs, and each loop has a counter.
-/

variable {frame : List UInt8}

/-- The turns that the counters of a DNS packet allow. -/
@[simp] abbrev dnsTurns : Nat := 2 * 65535 * (nameTurns + 1)

/-- What a handler asks to send is no longer than a packet. -/
def Send.Fits : Option Send -> Prop
  | some (.ethernet _ _ payload) => payload.length < 65536
  | some (.ipv4 _ _ payload) => payload.length < 65536
  | some (.tcp _) => True
  | none => True

variable {packet : List UInt8}

theorem handleArp_ensures (small : packet.length < 2 ^ 63) (world : World) :
    Ensures (handleArp packet world) 0 (fun outcome => Send.Fits outcome.1) := by
  unfold handleArp
  split
  · exact .pure trivial
  next long =>
  refine (readBe16_ensures (by omega) small).andThen fun op _ => ?_
  refine (ensures_slice (by omega) (by omega)).andThen fun part same => ?_
  refine (readMac_ensures same.2).andThen fun senderMac _ => ?_
  refine (readBe32_ensures (by omega) small).andThen fun senderIp _ => ?_
  refine (readBe32_ensures (by omega) small).andThen fun targetIp _ => ?_
  split
  · refine .pure ?_
    cases (world.rememberArp senderIp senderMac).localMac with
    | none => trivial
    | some localMac => simp [Send.Fits, arpPacket, be16Bytes, be32Bytes, Mac.bytes]
  · exact .pure trivial

theorem handleIcmp_ensures (src : UInt32) (short : packet.length < 65535) (world : World) :
    Ensures (handleIcmp src packet world) (packet.length + 2)
      (fun outcome => Send.Fits outcome.1) := by
  unfold handleIcmp
  split
  · exact .pure trivial
  next long =>
  refine (ensures_index (by omega)).andThen fun kind _ => ?_
  split
  · refine (readBe16_ensures (by omega) (by omega)).andThen fun ident _ => ?_
    split
    · exact .pure trivial
    · exact .pure trivial
  split
  · refine (ensures_store (by omega)).andThen fun first same => ?_
    refine (ensures_store (by omega)).andThen fun second again => ?_
    refine (ensures_store (by omega)).andThen fun third finally_ => ?_
    have length : third.length = packet.length := finally_.trans (again.trans same)
    rw [<- length]
    have sums : Ensures (checksum third) (third.length + 2) (fun _ => True) :=
      checksum_ensures (by omega)
    refine sums.atLast fun csum _ => ?_
    refine (storeChecksum_ensures (by omega) csum).andThen fun reply stored => .pure ?_
    simp only [Send.Fits]
    omega
  · exact .pure trivial

/-- What tells a lookup from others. -/
def DnsWait.key (wait : DnsWait) : UInt16 × UInt16 := (wait.txid, wait.port)

/-- Only a lookup of the key is answered, and nothing else changes. -/
def Hears (key : UInt16 × UInt16) (world after : World) : Prop :=
  Exists fun waits => after = { world with net.dnsWaits := waits } ∧
    Forall₂ (fun before wait => wait.key = before.key ∧ (wait = before ∨ before.key = key))
      world.net.dnsWaits waits

theorem Hears.refl (key : UInt16 × UInt16) (world : World) : Hears key world world :=
  ⟨_, rfl, forall₂_same.mpr fun _ _ => ⟨rfl, .inl rfl⟩⟩

theorem answerWait_hears (txid port : UInt16) (addrs : List UInt32) (waits : List DnsWait) :
    Forall₂ (fun before wait => wait.key = before.key ∧ (wait = before ∨ before.key = (txid, port)))
      waits (answerWait txid port addrs waits) := by
  induction waits with
  | nil => exact .nil
  | cons wait rest ih =>
    rw [answerWait]
    split
    · next same =>
      refine .cons ⟨rfl, .inr (Prod.ext same.1 same.2)⟩ ?_
      exact forall₂_same.mpr fun _ _ => ⟨rfl, .inl rfl⟩
    · exact .cons ⟨rfl, .inl rfl⟩ ih

theorem handleDnsResponse_ensures (dstPort : UInt16) (small : packet.length < 2 ^ 63)
    (world : World) :
    Ensures (handleDnsResponse dstPort packet world) dnsTurns
      (Hears (wordAt packet 0, dstPort) world) := by
  have same := Hears.refl (wordAt packet 0, dstPort) world
  unfold handleDnsResponse
  split
  · exact .pure same
  next long =>
  refine (readBe16_ensures (by omega) small).andThen fun txid sent => ?_
  refine (readBe16_ensures (by omega) small).andThen fun flags _ => ?_
  split
  · exact .pure same
  refine (parseDnsARecords_ensures small (Nat.le_of_not_lt long)).atLast fun addrs _ => ?_
  split
  · exact .pure same
  · exact .pure ⟨_, rfl, sent ▸ answerWait_hears txid dstPort addrs _⟩

/-- The payload of a UDP packet. -/
def udpPayload (packet : List UInt8) : List UInt8 := (packet.take (wordAt packet 4).toNat).drop 8

/-- The transaction and the port that a DNS packet answers. -/
def answeredKey (packet : List UInt8) : UInt16 × UInt16 :=
  (wordAt (udpPayload packet) 0, wordAt packet 2)

theorem handleUdp_ensures (small : packet.length < 2 ^ 63) (world : World) :
    Ensures (handleUdp packet world) dnsTurns (fun outcome =>
      Send.Fits outcome.1 ∧ Hears (answeredKey packet) world outcome.2) := by
  have same := Hears.refl (answeredKey packet) world
  unfold handleUdp
  split
  · exact .pure ⟨trivial, same⟩
  next long =>
  refine (readBe16_ensures (by omega) small).andThen fun dstPort port => ?_
  refine (readBe16_ensures (by omega) small).andThen fun udpLen length => ?_
  split
  · exact .pure ⟨trivial, same⟩
  next inside =>
  rw [not_or] at inside
  refine (ensures_slice (by omega) (by omega)).andThen fun payload part => ?_
  refine (handleDnsResponse_ensures dstPort (by omega) world).atLast fun after hears => ?_
  rw [part.1, length, port] at hears
  exact .pure ⟨trivial, hears⟩

theorem handleTcp_ensures (srcIp : UInt32) (small : packet.length < 2 ^ 63) (world : World) :
    Ensures (handleTcp srcIp packet world) 0 (fun outcome => Send.Fits outcome.1) := by
  refine (receiveTcp_ensures world.net.sockets srcIp small).andThen fun outcome _ => .pure ?_
  rcases outcome with ⟨sockets, woken, _ | reply⟩
  · trivial
  · trivial

theorem handleIpv4_ensures (small : packet.length < 2 ^ 63) (world : World) :
    Ensures (handleIpv4 packet world) (packet.length + dnsTurns)
      (fun outcome => Send.Fits outcome.1) := by
  unfold handleIpv4
  split
  · exact .pure trivial
  next long =>
  refine (ensures_index (by omega)).andThen fun first _ => ?_
  split
  · exact .pure trivial
  have nibble : (first &&& 0x0f).toNat < 256 := UInt8.toNat_lt _
  refine (ensures_mul (by omega)).andThen fun ihl _ => ?_
  split
  · exact .pure trivial
  next header =>
  rw [not_or] at header
  refine (readBe16_ensures (by omega) small).andThen fun totalLen _ => ?_
  have word := totalLen.toNat_lt
  split
  · exact .pure trivial
  next inside =>
  rw [not_or] at inside
  refine (ensures_index (by omega)).andThen fun protocol _ => ?_
  refine (readBe32_ensures (by omega) small).andThen fun src _ => ?_
  refine (readBe32_ensures (by omega) small).andThen fun dst _ => ?_
  split
  · exact .pure trivial
  refine (ensures_slice (by omega) (by omega)).andThen fun payload same => ?_
  split
  · exact (handleIcmp_ensures src (by omega) world).mono (by omega) fun _ here => here
  split
  · exact (handleUdp_ensures (by omega) world).mono (by omega) fun _ here => here.1
  split
  · exact (handleTcp_ensures src (by omega) world).mono (by omega) fun _ here => here
  · exact .pure trivial

/-- Reading a frame and changing the state faults in no case, and takes as many turns
as the length of the frame and the counters in it allow. -/
theorem receiveFrame_ensures (small : frame.length < 2 ^ 63) (world : World) :
    Ensures (receiveFrame frame world) (frame.length + dnsTurns)
      (fun outcome => Send.Fits outcome.1) := by
  unfold receiveFrame
  split
  · exact .pure trivial
  next long =>
  cases world.localMac with
  | none => exact .pure trivial
  | some localMac =>
    refine (ensures_slice (by omega) (by omega)).andThen fun part same => ?_
    refine (readMac_ensures same.2).andThen fun dst _ => ?_
    split
    · exact .pure trivial
    refine (readBe16_ensures (by omega) small).andThen fun ethertype _ => ?_
    have tail := world.net.rxTail.isLt
    refine (ensures_add (by omega)).andThen fun rxTail _ => ?_
    split
    · refine (ensures_slice (by omega) (by omega)).andThen fun packet same => ?_
      exact (handleArp_ensures (by omega) _).mono (by omega) fun _ here => here
    split
    · refine (ensures_slice (by omega) (by omega)).andThen fun packet same => ?_
      exact (handleIpv4_ensures (by omega) _).mono (by omega) fun _ here => here
    · exact .pure trivial

theorem transmit_returns (fits : frame.length < 2 ^ 63) (world : World) :
    Returns (transmit frame world) (fun _ => True) := by
  unfold transmit
  split
  · exact .pure trivial
  refine (ensures_add (by simp only [virtioNetHdrLen]; omega)).thenReturns fun bytes _ => ?_
  split
  · exact .pure trivial
  · exact .pure trivial

theorem emitEthernet_returns (dstMac : Mac) (ethertype : UInt16) {payload : List UInt8}
    (fits : payload.length < 2 ^ 32) (world : World) :
    Returns (emitEthernet dstMac ethertype payload world) (fun _ => True) := by
  unfold emitEthernet
  split
  · exact .pure trivial
  refine (ensures_add (by omega)).thenReturns fun _ _ => ?_
  refine transmit_returns ?_ world
  simp only [List.length_append, Mac.bytes, be16Bytes, List.length_cons, List.length_nil]
  omega

theorem sendArpRequest_returns (targetIp : UInt32) (world : World) :
    Returns (sendArpRequest targetIp world) (fun _ => True) := by
  unfold sendArpRequest
  split
  · exact .pure trivial
  · refine emitEthernet_returns _ _ ?_ world
    simp [arpPacket, be16Bytes, be32Bytes, Mac.bytes]

theorem queueTxPacket_returns (world : World) : Returns (queueTxPacket world) (fun _ => True) := by
  unfold queueTxPacket
  split
  · exact .pure trivial
  have tail := world.net.txTail.isLt
  exact (ensures_add (by omega)).thenReturns fun _ _ => .pure trivial

section

variable {poll : World -> Code World} (polls : ∀ world, Returns (poll world) (fun _ => True))

include polls

theorem awaitMac_returns (ip : UInt32) (spins : Nat) (world : World) :
    Returns (awaitMac poll ip spins world) (fun _ => True) := by
  induction spins generalizing world with
  | zero => exact .pure trivial
  | succ spins ih =>
    refine (polls world).bind fun after _ => ?_
    split
    · exact .pure trivial
    · exact ih after

theorem resolveMac_returns (ip : UInt32) (world : World) :
    Returns (resolveMac poll ip world) (fun _ => True) := by
  unfold resolveMac
  split
  · exact .pure trivial
  refine (sendArpRequest_returns ip world).bind fun outcome _ => ?_
  rcases outcome with ⟨_ | _, after⟩
  · exact .pure trivial
  · exact awaitMac_returns polls ip pollSpins after

theorem sendIpv4_returns (dst : UInt32) (protocol : UInt8) {payload : List UInt8}
    (fits : payload.length < 65536) (world : World) :
    Returns (sendIpv4 poll dst protocol payload world) (fun _ => True) := by
  unfold sendIpv4
  refine (ensures_add (by omega)).thenReturns fun totalLen _ => ?_
  split
  · exact .pure trivial
  have header (ident : UInt16) : (ipv4Header totalLen ident protocol dst).length = 20 := rfl
  refine (checksum_ensures (by rw [header]; decide)).returns.bind fun csum _ => ?_
  refine (storeChecksum_ensures (by rw [header]; decide) csum).thenReturns fun stored same => ?_
  refine (resolveMac_returns polls _ _).bind fun outcome _ => ?_
  rcases outcome with ⟨_ | mac, after⟩
  · exact .pure trivial
  · refine emitEthernet_returns mac ethertypeIpv4 ?_ after
    rw [List.length_append, same, header]
    omega

theorem sendTcpReply_returns (reply : TcpReply) (world : World) :
    Returns (sendTcpReply poll reply world) (fun _ => True) := by
  unfold sendTcpReply
  generalize made : be16Bytes reply.srcPort ++ be16Bytes reply.dstPort ++ be32Bytes reply.seq ++
    be32Bytes reply.ack ++ [0x50, reply.flags] ++ be16Bytes reply.window ++ be16Bytes 0 ++
    be16Bytes 0 = packet
  have length : packet.length = 20 := made ▸ rfl
  have summed : Returns (tcpChecksum localAddr reply.dstIp packet) (fun _ => True) := by
    refine (ensures_add (by omega)).thenReturns fun _ _ => ?_
    refine (checksum_ensures ?_).returns
    simp only [List.length_append, be16Bytes, be32Bytes, List.length_cons, List.length_nil]
    omega
  refine summed.bind fun csum _ => ?_
  refine (storeChecksum_ensures (by omega) csum).thenReturns fun stored same => ?_
  refine (queueTxPacket_returns world).bind fun after _ => ?_
  exact sendIpv4_returns polls reply.dstIp ipProtoTcp (by omega) after

theorem perform_returns {send : Option Send} (fits : Send.Fits send) (world : World) :
    Returns (perform poll send world) (fun _ => True) := by
  unfold perform
  split
  · exact .pure trivial
  · exact (emitEthernet_returns _ _ (Nat.lt_trans fits (by decide)) world).bind
      fun _ _ => .pure trivial
  · exact (sendIpv4_returns polls _ _ fits world).bind fun _ _ => .pure trivial
  · exact (sendTcpReply_returns polls _ world).bind fun _ _ => .pure trivial

theorem handleEthernet_returns (small : frame.length < 2 ^ 63)
    (world : World) : Returns (handleEthernet poll frame world) (fun _ => True) :=
  (receiveFrame_ensures small world).returns.bind fun outcome fits =>
    perform_returns polls fits outcome.2

end

theorem pollNested_returns (depth : Nat) (world : World) :
    Returns (pollNested depth world) (fun _ => True) := by
  induction depth generalizing world with
  | zero => exact .pure trivial
  | succ depth ih =>
    rw [pollNested]
    split
    · exact .pure trivial
    · next frames rest _ =>
      refine returns_foldlM ?_ frames trivial
      exact fun world frame _ => handleEthernet_returns ih frame.property world

/-- For every frame, every state of the stack and every nesting of polls, with whatever
they find: no handler faults, and the loops that parse the frame are bounded by its
length and by what 16-bit counters can count. -/
theorem handleEthernet_never_faults (frame : Frame) (world : World) (depth : Nat) :
    Ensures (receiveFrame frame.val world) (frame.val.length + dnsTurns) (fun _ => True) ∧
      Returns (handleEthernet (pollNested depth) frame.val world) (fun _ => True) :=
  ⟨(receiveFrame_ensures frame.property world).mono (Nat.le_refl _) (fun _ _ => trivial),
    handleEthernet_returns (pollNested_returns depth) frame.property world⟩

/-!
## Who answers a lookup

A pending lookup is answered by a datagram with its transaction and its port.  Neither
the source of the datagram nor its question is looked at, so anybody who guesses the
two numbers can answer.
-/

@[simp] abbrev dnsAddr : UInt32 := 0x0a000203

/-- A received UDP datagram, with the source address of the IPv4 header before it. -/
structure Datagram where
  src : UInt32
  packet : Frame
  deriving DecidableEq

namespace Datagram

def key (datagram : Datagram) : UInt16 × UInt16 := answeredKey datagram.packet.val

def receive (world : World) (datagram : Datagram) : World :=
  match (handleUdp datagram.packet.val world).value? with
  | some (_, after) => after
  | none => world

/-- An answer of the resolver to one of the lookups; `question` has the encoded name that
each of them asks for. -/
def Genuine (question : UInt16 × UInt16 -> List UInt8) (keys : List (UInt16 × UInt16))
    (datagram : Datagram) : Prop :=
  datagram.src = dnsAddr ∧ wordAt datagram.packet.val 0 = 53 ∧ datagram.key ∈ keys ∧
    question datagram.key <+: (udpPayload datagram.packet.val).drop 12

instance {question : UInt16 × UInt16 -> List UInt8} {keys : List (UInt16 × UInt16)} :
    DecidablePred (Genuine question keys) :=
  fun _ => inferInstanceAs (Decidable (_ ∧ _ ∧ _ ∧ _))

end Datagram

open Datagram

/-- The lookups that are pending. -/
def World.lookups (world : World) : List (UInt16 × UInt16) := world.net.dnsWaits.map DnsWait.key

variable {question : UInt16 × UInt16 -> List UInt8} {keys : List (UInt16 × UInt16)}
  {world : World} {datagram : Datagram} {datagrams : List Datagram}

theorem receive_hears (world : World) (datagram : Datagram) :
    Hears datagram.key world (receive world datagram) := by
  rcases handleUdp_ensures datagram.packet.property world with ⟨outcome, turns, ran, _, _, hears⟩
  rw [receive, ran]
  exact hears

theorem lookups_receive (world : World) (datagram : Datagram) :
    (receive world datagram).lookups = world.lookups := by
  rcases receive_hears world datagram with ⟨waits, after, heard⟩
  rw [after, World.lookups, World.lookups, <- forall₂_eq_eq_eq, forall₂_map_left_iff,
    forall₂_map_right_iff]
  exact heard.flip.imp fun _ _ here => here.1

theorem lookups_run (world : World) (datagrams : List Datagram) :
    (datagrams.foldl receive world).lookups = world.lookups := by
  induction datagrams generalizing world with
  | nil => rfl
  | cons datagram rest ih => exact (ih _).trans (lookups_receive world datagram)

/-- A datagram that is for no lookup is lost. -/
theorem receive_stranger (stranger : datagram.key ∉ world.lookups) :
    receive world datagram = world := by
  rcases receive_hears world datagram with ⟨waits, after, heard⟩
  have same : world.net.dnsWaits = waits := by
    rw [<- forall₂_eq_eq_eq]
    refine (forall₂_iff_zip.mp heard).elim fun length here => forall₂_iff_zip.mpr ⟨length, ?_⟩
    intro before wait paired
    rcases (here paired).2 with same | answered
    · exact same.symm
    · exact absurd (answered ▸ mem_map_of_mem (of_mem_zip paired).1) stranger
  rw [after, <- same]

/-- Whatever is for a lookup comes from the resolver. -/
def Honest (question : UInt16 × UInt16 -> List UInt8) (keys : List (UInt16 × UInt16))
    (datagrams : List Datagram) : Prop :=
  ∀ datagram ∈ datagrams, datagram.key ∈ keys -> datagram.Genuine question keys

theorem run_genuine (honest : Honest question world.lookups datagrams) :
    datagrams.foldl receive world =
      (datagrams.filter (Genuine question world.lookups)).foldl receive world := by
  induction datagrams generalizing world with
  | nil => rfl
  | cons datagram rest ih =>
    have later : Honest question world.lookups rest := fun other listed =>
      honest other (mem_cons_of_mem _ listed)
    rw [foldl_cons]
    by_cases genuine : datagram.Genuine question world.lookups
    · rw [<- lookups_receive world datagram] at later
      rw [filter_cons_of_pos (by simpa using genuine), foldl_cons, ih later, lookups_receive]
    · have stranger := fun here => genuine (honest datagram mem_cons_self here)
      rw [filter_cons_of_neg (by simpa using genuine), receive_stranger stranger, ih later]

/-- Where whatever is for a lookup comes from the resolver, only its answers change the
result of one, and other datagrams do not matter. -/
theorem answered_by_resolver {others : List Datagram}
    (honest : Honest question world.lookups datagrams)
    (others_honest : Honest question world.lookups others) :
    (forall earlier datagram later, datagrams = earlier ++ datagram :: later ->
      Forall₂ (fun before wait => wait.result ≠ before.result ->
          before.key = datagram.key ∧ datagram.Genuine question world.lookups)
        (earlier.foldl receive world).net.dnsWaits
        ((earlier ++ [datagram]).foldl receive world).net.dnsWaits) ∧
      (datagrams.filter (Genuine question world.lookups) =
          others.filter (Genuine question world.lookups) ->
        (datagrams.foldl receive world).net.dnsWaits =
          (others.foldl receive world).net.dnsWaits) := by
  constructor
  · intro earlier datagram later split
    rw [foldl_append, foldl_cons, foldl_nil]
    rcases receive_hears (earlier.foldl receive world) datagram with ⟨waits, after, heard⟩
    rw [after]
    refine (forall₂_iff_zip.mp heard).elim fun length here => forall₂_iff_zip.mpr ⟨length, ?_⟩
    intro before wait paired changed
    have answered := (here paired).2.resolve_left fun same => changed (congrArg _ same)
    have listed := mem_map_of_mem (f := DnsWait.key) (of_mem_zip paired).1
    rw [answered] at listed
    refine ⟨answered, honest datagram ?_ (lookups_run world earlier ▸ listed)⟩
    rw [split]
    exact mem_append_right _ mem_cons_self
  · intro same
    rw [run_genuine honest, run_genuine others_honest, same]

/-- An answer with one address. -/
def rootAnswer (src : UInt32) (srcPort txid : UInt8) : Datagram where
  src := src
  packet := ⟨[0, srcPort, 0xc0, 0, 0, 40, 0, 0, 0x12, txid, 0x81, 0x80, 0, 1, 0, 1, 0, 0, 0, 0,
    0, 0, 1, 0, 1, 0, 0, 1, 0, 1, 0, 0, 0, 0, 0, 4, 6, 6, 6, 6], by simp⟩

def waitingWorld : World where
  net := ⟨0, 0, 0, 0, 0, 0, [], [⟨0x1234, 0xc000, none⟩], [], none, false⟩
  adapters := []
  ticks := 0
  device := none
  incoming := []
  sent := []
  woken := []

/-- A datagram of another transaction does not matter. -/
theorem answered_by_resolver_stray :
    ([rootAnswer dnsAddr 53 0x34].foldl receive waitingWorld).net.dnsWaits =
      ([rootAnswer 0x0a000263 53 0x35, rootAnswer dnsAddr 53 0x34].foldl receive
        waitingWorld).net.dnsWaits := by
  refine (@answered_by_resolver (fun _ => [0]) _ _ _ ?_ ?_).2 (by decide)
  · unfold Honest
    decide
  · unfold Honest
    decide

/-- An answer from another host and port is taken. -/
theorem lookup_answered_by_stranger :
    (receive waitingWorld (rootAnswer 0x0a000263 1 0x34)).net.dnsWaits.map DnsWait.result ≠
        waitingWorld.net.dnsWaits.map DnsWait.result ∧
      forall question, ¬ (rootAnswer 0x0a000263 1 0x34).Genuine question waitingWorld.lookups :=
  ⟨by decide, fun _ genuine => absurd genuine.1 (by decide)⟩

end CoolOs.Net
