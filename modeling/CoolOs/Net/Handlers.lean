import CoolOs.Net.Tcp

namespace CoolOs.Net

open Checked Checked.Code

/-!
# DNS answers

The loops over the questions, the answers and the labels of a name, each with the
number of turns its counter gives it.
-/

/-- The turns of the loop over the labels of a name: the guard stops it after these. -/
@[simp] abbrev nameTurns : Nat := 66

/-- The loop of `skip_dns_name`; `guard` is its count of labels. -/
def skipNameLoop (packet : List UInt8) : Nat -> Nat -> Nat -> Code (Option Nat)
  | 0, _, _ => fault .unbounded
  | fuel + 1, off, labels => do
    turn
    if off ≥ packet.length ∨ labels > 64 then pure none
    else do
      let len <- index packet off
      if len &&& 0xc0 = 0xc0 then pure (checkedAdd off 2)
      else do
        let off <- add 64 off 1
        if len = 0 then pure (some off)
        else
          match checkedAdd off len.toNat with
          | none => pure none
          | some off => do
            let labels <- add 64 labels 1
            skipNameLoop packet fuel off labels

def skipDnsName (packet : List UInt8) (off : Nat) : Code (Option Nat) :=
  skipNameLoop packet nameTurns off 0

/-- The loop over the questions: where the answers start, if there are any. -/
def skipQuestions (packet : List UInt8) : Nat -> Nat -> Code (Option Nat)
  | 0, off => pure (some off)
  | count + 1, off => do
    turn
    let name <- skipDnsName packet off
    match name.bind (fun next => checkedAdd next 4) with
    | none => pure none
    | some off => if off > packet.length then pure none else skipQuestions packet count off

/-- The loop over the answers, which collects the addresses of the A records. -/
def readAnswers (packet : List UInt8) : Nat -> Nat -> List UInt32 -> Code (List UInt32)
  | 0, _, addrs => pure addrs
  | count + 1, off, addrs => do
    turn
    match <- skipDnsName packet off with
    | none => pure addrs
    | some off => do
      let data <- add 64 off 10
      if data > packet.length then pure addrs
      else do
        let typ <- readBe16 packet off
        let class_ <- readBe16 packet (<- add 64 off 2)
        let rdlen <- readBe16 packet (<- add 64 off 8)
        let next <- add 64 data rdlen.toNat
        if next > packet.length then pure addrs
        else if typ = 1 ∧ class_ = 1 ∧ rdlen = 4 then do
          let addr <- readBe32 packet data
          readAnswers packet count next (addrs ++ [addr])
        else readAnswers packet count next addrs

def parseDnsARecords (packet : List UInt8) : Code (List UInt32) := do
  let qd <- readBe16 packet 4
  let an <- readBe16 packet 6
  match <- skipQuestions packet qd.toNat 12 with
  | none => pure []
  | some off => readAnswers packet an.toNat off []

theorem checkedAdd_eq {left right : Nat} (fits : left + right < 2 ^ 64) :
    checkedAdd left right = some (left + right) := if_pos fits

/-- An offset that a name leads to is not far behind the packet. -/
def NotFar (packet : List UInt8) (off : Option Nat) : Prop :=
  forall next, off = some next -> next <= packet.length + 256

variable {packet : List UInt8} (small : packet.length < 2 ^ 63)
include small

theorem skipNameLoop_ensures
    {fuel off labels : Nat} (enough : 66 <= fuel + labels) (guarded : labels <= 65) :
    Ensures (skipNameLoop packet fuel off labels) fuel (NotFar packet) := by
  induction fuel generalizing off labels with
  | zero => omega
  | succ fuel ih =>
    rw [skipNameLoop, Nat.add_comm fuel 1]
    refine ensures_turn.bind fun _ _ => ?_
    split
    · exact .pure nofun
    next inside =>
    rw [not_or] at inside
    refine (ensures_index (by omega)).andThen fun len _ => ?_
    have byte := len.toNat_lt
    split
    · rw [checkedAdd_eq (by omega)]
      refine .pure fun next same => ?_
      cases same
      omega
    refine (ensures_add (by omega)).andThen fun after same => ?_
    split
    · refine .pure fun next same => ?_
      cases same
      omega
    rw [checkedAdd_eq (by omega)]
    refine (ensures_add (by omega)).andThen fun more same => ?_
    subst same
    exact ih (by omega) (by omega)

theorem skipDnsName_ensures (off : Nat) :
    Ensures (skipDnsName packet off) nameTurns (NotFar packet) :=
  skipNameLoop_ensures small (by decide) (by decide)

omit small in
theorem turns_succ (count : Nat) :
    (count + 1) * (nameTurns + 1) = 1 + (nameTurns + count * (nameTurns + 1)) := by
  simp only [nameTurns]
  omega

theorem skipQuestions_ensures (count off : Nat) :
    Ensures (skipQuestions packet count off) (count * (nameTurns + 1)) (fun _ => True) := by
  induction count generalizing off with
  | zero => exact .pure trivial
  | succ count ih =>
    rw [skipQuestions, turns_succ]
    refine ensures_turn.bind fun _ _ => ?_
    refine (skipDnsName_ensures small off).bind fun name _ => ?_
    split
    · exact .pure trivial
    split
    · exact .pure trivial
    · exact ih _

theorem readAnswers_ensures (count off : Nat) (addrs : List UInt32) :
    Ensures (readAnswers packet count off addrs) (count * (nameTurns + 1)) (fun _ => True) := by
  induction count generalizing off addrs with
  | zero => exact .pure trivial
  | succ count ih =>
    rw [readAnswers, turns_succ]
    refine ensures_turn.bind fun _ _ => ?_
    refine (skipDnsName_ensures small off).bind fun name near => ?_
    cases name with
    | none => exact .pure trivial
    | some off =>
      have close := near off rfl
      refine (ensures_add (by omega)).andThen fun data same => ?_
      split
      · exact .pure trivial
      next inside =>
      refine (readBe16_ensures (by omega) small).andThen fun typ _ => ?_
      refine (ensures_add (by omega)).andThen fun _ same => ?_
      subst same
      refine (readBe16_ensures (by omega) small).andThen fun class_ _ => ?_
      refine (ensures_add (by omega)).andThen fun _ same => ?_
      refine (readBe16_ensures (by omega) small).andThen fun rdlen _ => ?_
      have length := rdlen.toNat_lt
      refine (ensures_add (by omega)).andThen fun next same => ?_
      subst same
      split
      · exact .pure trivial
      split
      · next record =>
        have four : rdlen.toNat = 4 := congrArg UInt16.toNat record.2.2
        refine (readBe32_ensures (by omega) small).andThen fun addr _ => ?_
        exact ih _ _
      · exact ih _ _

/-- The turns are bounded by the two counters of the packet. -/
theorem parseDnsARecords_ensures (long : 12 <= packet.length) :
    Ensures (parseDnsARecords packet) (2 * 65535 * (nameTurns + 1)) (fun _ => True) := by
  refine (readBe16_ensures (by omega) small).andThen fun qd _ => ?_
  refine (readBe16_ensures (by omega) small).andThen fun an _ => ?_
  have questions := qd.toNat_lt
  have answers := an.toNat_lt
  have both : Ensures (do
      match <- skipQuestions packet qd.toNat 12 with
      | none => pure []
      | some off => readAnswers packet an.toNat off [])
      (qd.toNat * (nameTurns + 1) + an.toNat * (nameTurns + 1)) (fun _ => True) := by
    refine (skipQuestions_ensures small qd.toNat 12).bind fun start _ => ?_
    cases start with
    | none => exact .pure trivial
    | some off => exact readAnswers_ensures small an.toNat off []
  refine both.mono ?_ (fun _ here => here)
  simp only [nameTurns]
  omega

/-!
## Handlers of received frames

Every handler ends with at most one send, which it returns here: what it reads and
changes is one definition, and what sending does is another.  Sending may have to ask
for a hardware address, and while it waits for the answer it polls the device, which
hands more frames to the handlers.
-/

/-- The sends that handlers end with. -/
inductive Send where
  | ethernet (dstMac : Mac) (ethertype : UInt16) (payload : List UInt8)
  | ipv4 (dst : UInt32) (protocol : UInt8) (payload : List UInt8)
  | tcp (reply : TcpReply)

/-- An ARP packet of an operation from this host. -/
def arpPacket (op : UInt16) (localMac : Mac) (targetMac : Mac) (targetIp : UInt32) : List UInt8 :=
  be16Bytes 1 ++ be16Bytes ethertypeIpv4 ++ [6, 4] ++ be16Bytes op ++ localMac.bytes ++
    be32Bytes localAddr ++ targetMac.bytes ++ be32Bytes targetIp

def handleArp (packet : List UInt8) (world : World) : Code (Option Send × World) :=
  if packet.length < 28 then pure (none, world)
  else do
    let op <- readBe16 packet 6
    let senderMac <- readMac (<- slice packet 8 14)
    let senderIp <- readBe32 packet 14
    let targetIp <- readBe32 packet 24
    let world := world.rememberArp senderIp senderMac
    if op = 1 ∧ targetIp = localAddr then
      pure (world.localMac.map (fun localMac =>
        .ethernet senderMac ethertypeArp (arpPacket 2 localMac senderMac senderIp)), world)
    else pure (none, world)

def handleIcmp (src : UInt32) (packet : List UInt8) (world : World) : Code (Option Send × World) :=
  if packet.length < 8 then pure (none, world)
  else do
    let kind <- index packet 0
    if kind = 0 then do
      let ident <- readBe16 packet 4
      if world.net.icmpWait = some ident then
        pure (none, { world with net.icmpWait := none, net.lastPingOk := true })
      else pure (none, world)
    else if kind = 8 then do
      let reply <- store packet 0 0
      let reply <- store reply 2 0
      let reply <- store reply 3 0
      let csum <- checksum reply
      let reply <- storeChecksum reply 2 csum
      pure (some (.ipv4 src ipProtoIcmp reply), world)
    else pure (none, world)

/-- Answer the first lookup with the transaction id and port. -/
def answerWait (txid port : UInt16) (addrs : List UInt32) : List DnsWait -> List DnsWait
  | [] => []
  | wait :: rest =>
    if wait.txid = txid ∧ wait.port = port then { wait with result := some addrs } :: rest
    else wait :: answerWait txid port addrs rest

def handleDnsResponse (dstPort : UInt16) (packet : List UInt8) (world : World) : Code World :=
  if packet.length < 12 then pure world
  else do
    let txid <- readBe16 packet 0
    let flags <- readBe16 packet 2
    if flags &&& 0x8000 = 0 then pure world
    else do
      let addrs <- parseDnsARecords packet
      if addrs.isEmpty then pure world
      else pure { world with net.dnsWaits := answerWait txid dstPort addrs world.net.dnsWaits }

def handleUdp (packet : List UInt8) (world : World) : Code (Option Send × World) :=
  if packet.length < 8 then pure (none, world)
  else do
    let dstPort <- readBe16 packet 2
    let udpLen <- readBe16 packet 4
    if udpLen.toNat < 8 ∨ udpLen.toNat > packet.length then pure (none, world)
    else do
      let payload <- slice packet 8 udpLen.toNat
      let world <- handleDnsResponse dstPort payload world
      pure (none, world)

def handleTcp (srcIp : UInt32) (packet : List UInt8) (world : World) :
    Code (Option Send × World) := do
  let (sockets, woken, reply) <- receiveTcp world.net.sockets srcIp packet
  pure (reply.map .tcp,
    { world with net.sockets := sockets, woken := world.woken ++ woken })

def handleIpv4 (packet : List UInt8) (world : World) : Code (Option Send × World) :=
  if packet.length < 20 then pure (none, world)
  else do
    let first <- index packet 0
    if first >>> 4 ≠ 4 then pure (none, world)
    else do
      let ihl <- mul 64 (first &&& 0x0f).toNat 4
      if ihl < 20 ∨ packet.length < ihl then pure (none, world)
      else do
        let totalLen <- readBe16 packet 2
        if totalLen.toNat < ihl ∨ totalLen.toNat > packet.length then pure (none, world)
        else do
          let protocol <- index packet 9
          let src <- readBe32 packet 12
          let dst <- readBe32 packet 16
          if dst ≠ localAddr then pure (none, world)
          else do
            let payload <- slice packet ihl totalLen.toNat
            if protocol = ipProtoIcmp then handleIcmp src payload world
            else if protocol = ipProtoUdp then handleUdp payload world
            else if protocol = ipProtoTcp then handleTcp src payload world
            else pure (none, world)

/-- `handle_ethernet` up to the send. -/
def receiveFrame (frame : List UInt8) (world : World) : Code (Option Send × World) :=
  if frame.length < 14 then pure (none, world)
  else
    match world.localMac with
    | none => pure (none, world)
    | some localMac => do
      let dst <- readMac (<- slice frame 0 6)
      if dst ≠ localMac ∧ dst ≠ broadcastMac then pure (none, world)
      else do
        let ethertype <- readBe16 frame 12
        let rxTail <- add 64 world.net.rxTail.val 1
        let world := { world with
          net.rxTail := Fin.ofNat 64 rxTail
          net.rxPackets := saturatingSucc world.net.rxPackets }
        if ethertype = ethertypeArp then do
          let packet <- slice frame 14 frame.length
          handleArp packet world
        else if ethertype = ethertypeIpv4 then do
          let packet <- slice frame 14 frame.length
          handleIpv4 packet world
        else pure (none, world)

/-- `virtio_net::transmit`. -/
def transmit (frame : List UInt8) (world : World) : Code (Except String Unit × World) :=
  match world.device with
  | none => pure (.error "virtio-net not initialized", world)
  | some completes => do
    let bytes <- add 64 frame.length virtioNetHdrLen
    if frame.isEmpty ∨ bytes > txBufferBytes then pure (.error "frame too large", world)
    else
      let world := { world with sent := world.sent ++ [frame], device := some completes.tail }
      pure (if completes.headD false then .ok () else .error "tx timeout", world)

def emitEthernet (dstMac : Mac) (ethertype : UInt16) (payload : List UInt8) (world : World) :
    Code (Except String Unit × World) :=
  match world.localMac with
  | none => pure (.error "no local MAC", world)
  | some srcMac => do
    let _ <- add 64 14 payload.length
    transmit (dstMac.bytes ++ srcMac.bytes ++ be16Bytes ethertype ++ payload) world

def sendArpRequest (targetIp : UInt32) (world : World) : Code (Except String Unit × World) :=
  match world.localMac with
  | none => pure (.error "no local MAC", world)
  | some localMac =>
    emitEthernet broadcastMac ethertypeArp (arpPacket 1 localMac ⟨0, 0, 0, 0, 0, 0⟩ targetIp) world

def routeNextHop (dst : UInt32) : UInt32 :=
  if dst &&& netmask = localAddr &&& netmask then dst else gatewayAddr

/-- `queue_tx_packet`. -/
def queueTxPacket (world : World) : Code World :=
  if !world.hasLink then
    pure { world with net.dropped := saturatingSucc world.net.dropped }
  else do
    let txTail <- add 64 world.net.txTail.val 1
    pure { world with
      net.txTail := Fin.ofNat 64 txTail
      net.txPackets := saturatingSucc world.net.txPackets }

section

variable (poll : World -> Code World)

/-- The loop of `resolve_mac` that polls for an answer. -/
def awaitMac (ip : UInt32) : Nat -> World -> Code (Except String Mac × World)
  | 0, world => pure (.error "ARP timeout", world)
  | spins + 1, world => do
    let world <- poll world
    match world.lookupArp ip with
    | some mac => pure (.ok mac, world)
    | none => awaitMac ip spins world

def resolveMac (ip : UInt32) (world : World) : Code (Except String Mac × World) :=
  match world.lookupArp ip with
  | some mac => pure (.ok mac, world)
  | none => do
    match <- sendArpRequest ip world with
    | (.error reason, world) => pure (.error reason, world)
    | (.ok (), world) => awaitMac poll ip pollSpins world

/-- The header of an IPv4 packet, without its checksum. -/
def ipv4Header (totalLen : Nat) (ident : UInt16) (protocol : UInt8) (dst : UInt32) : List UInt8 :=
  [0x45, 0] ++ be16Bytes (UInt16.ofNat totalLen) ++ be16Bytes ident ++ be16Bytes 0x4000 ++
    [64, protocol] ++ be16Bytes 0 ++ be32Bytes localAddr ++ be32Bytes dst

def sendIpv4 (dst : UInt32) (protocol : UInt8) (payload : List UInt8) (world : World) :
    Code (Except String Unit × World) := do
  let ident := world.net.ipIdent
  let world := { world with net.ipIdent := ident + 1 }
  let totalLen <- add 64 20 payload.length
  if totalLen > 1500 then pure (.error "IPv4 packet too large", world)
  else do
    let header := ipv4Header totalLen ident protocol dst
    let csum <- checksum header
    let header <- storeChecksum header 10 csum
    match <- resolveMac poll (routeNextHop dst) world with
    | (.error reason, world) => pure (.error reason, world)
    | (.ok mac, world) => emitEthernet mac ethertypeIpv4 (header ++ payload) world

/-- `send_tcp_segment` for an acknowledgement without data. -/
def sendTcpReply (reply : TcpReply) (world : World) : Code (Except String Unit × World) := do
  let packet := be16Bytes reply.srcPort ++ be16Bytes reply.dstPort ++ be32Bytes reply.seq ++
    be32Bytes reply.ack ++ [0x50, reply.flags] ++ be16Bytes reply.window ++ be16Bytes 0 ++
    be16Bytes 0
  let csum <- tcpChecksum localAddr reply.dstIp packet
  let packet <- storeChecksum packet 16 csum
  let world <- queueTxPacket world
  sendIpv4 poll reply.dstIp ipProtoTcp packet world

/-- Carry out a send; its result is not looked at. -/
def perform (send : Option Send) (world : World) : Code World :=
  match send with
  | none => pure world
  | some (.ethernet dstMac ethertype payload) => do
    let (_, world) <- emitEthernet dstMac ethertype payload world
    pure world
  | some (.ipv4 dst protocol payload) => do
    let (_, world) <- sendIpv4 poll dst protocol payload world
    pure world
  | some (.tcp reply) => do
    let (_, world) <- sendTcpReply poll reply world
    pure world

/-- `handle_ethernet`, with what polling does meanwhile. -/
def handleEthernet (frame : List UInt8) (world : World) : Code World := do
  let (send, world) <- receiveFrame frame world
  perform poll send world

end

/-- `poll`, where at most so many polls are nested in each other.  Each one takes what
has come in since the last, so as many as there are such batches are enough. -/
def pollNested : Nat -> World -> Code World
  | 0, world => pure world
  | depth + 1, world =>
    match world.incoming with
    | [] => pure world
    | frames :: rest =>
      frames.foldlM (fun world frame => handleEthernet (pollNested depth) frame.val world)
        { world with incoming := rest }

end CoolOs.Net
