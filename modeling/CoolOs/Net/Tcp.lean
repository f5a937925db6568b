import CoolOs.Checked.Code
import Mathlib.Data.List.InsertIdx

namespace CoolOs.Net

open Checked Checked.Code

/-!
# The state of the network stack

The sockets, the tables and the counters that the handlers of received packets use,
and what surrounds them: the adapters, the device that sends and receives frames and
the tasks that have been woken.
-/

@[simp] abbrev localAddr : UInt32 := 0x0a00020f
@[simp] abbrev netmask : UInt32 := 0xffffff00
@[simp] abbrev gatewayAddr : UInt32 := 0x0a000202
@[simp] abbrev ethertypeIpv4 : UInt16 := 0x0800
@[simp] abbrev ethertypeArp : UInt16 := 0x0806
@[simp] abbrev ipProtoIcmp : UInt8 := 1
@[simp] abbrev ipProtoTcp : UInt8 := 6
@[simp] abbrev ipProtoUdp : UInt8 := 17
@[simp] abbrev tcpRxWindow : Nat := 32768
@[simp] abbrev tcpOutOfOrderMax : Nat := 8
@[simp] abbrev socketBase : UInt64 := 1024
@[simp] abbrev pollSpins : Nat := 3000000
@[simp] abbrev txBufferBytes : Nat := 2048
@[simp] abbrev virtioNetHdrLen : Nat := 10

/-- A string of bytes in memory; none is longer than `isize::MAX`. -/
abbrev Frame : Type := { bytes : List UInt8 // bytes.length < 2 ^ 63 }

structure Mac where
  first : UInt8
  second : UInt8
  third : UInt8
  fourth : UInt8
  fifth : UInt8
  sixth : UInt8
  deriving DecidableEq

def Mac.bytes (mac : Mac) : List UInt8 :=
  [mac.first, mac.second, mac.third, mac.fourth, mac.fifth, mac.sixth]

@[simp] abbrev broadcastMac : Mac := ⟨0xff, 0xff, 0xff, 0xff, 0xff, 0xff⟩

inductive TcpState where
  | closed
  | synSent
  | established
  | closeWait
  deriving DecidableEq

structure TcpPendingSegment where
  seq : UInt32
  data : List UInt8
  deriving DecidableEq

structure TcpSocket where
  owner : Nat
  localPort : UInt16
  remoteIp : UInt32
  remotePort : UInt16
  seq : UInt32
  txAcked : UInt32
  ack : UInt32
  state : TcpState
  rx : List UInt8
  pendingRx : List TcpPendingSegment
  peerClosed : Bool
  waitingReaders : List Nat
  waitingWriters : List Nat
  deriving DecidableEq

structure TcpReply where
  srcPort : UInt16
  dstIp : UInt32
  dstPort : UInt16
  seq : UInt32
  ack : UInt32
  flags : UInt8
  window : UInt16
  deriving DecidableEq

structure ArpEntry where
  ip : UInt32
  mac : Mac
  tick : UInt64

structure DnsWait where
  txid : UInt16
  port : UInt16
  result : Option (List UInt32)

scoped instance tail_nonzero : NeZero 64 := ⟨by decide⟩

/-- The two tails go around rings of 64. -/
structure NetState where
  txTail : Fin 64
  rxTail : Fin 64
  txPackets : UInt64
  rxPackets : UInt64
  dropped : UInt64
  ipIdent : UInt16
  arpEntries : List ArpEntry
  dnsWaits : List DnsWait
  sockets : List (Option TcpSocket)
  icmpWait : Option UInt16
  lastPingOk : Bool

structure NetAdapter where
  mac : Mac
  linkUp : Bool

/-- The stack and its surroundings.  The device, once initialized, completes some of
the next transmissions in time; `incoming` are the frames that each of the next polls
finds, and `sent` and `woken` what has been handed out. -/
structure World where
  net : NetState
  adapters : List NetAdapter
  ticks : UInt64
  device : Option (List Bool)
  incoming : List (List Frame)
  sent : List (List UInt8)
  woken : List Nat

variable (world : World)

namespace World

def hasLink : Bool := world.adapters.any NetAdapter.linkUp

def localMac : Option Mac :=
  (world.adapters.find? NetAdapter.linkUp).map NetAdapter.mac

def lookupArp (ip : UInt32) : Option Mac :=
  (world.net.arpEntries.find? (fun entry => entry.ip == ip)).map ArpEntry.mac

/-- Replace the first entry of an address, or add one. -/
def rememberEntry (ip : UInt32) (mac : Mac) (tick : UInt64) : List ArpEntry -> List ArpEntry
  | [] => [⟨ip, mac, tick⟩]
  | entry :: rest =>
    if entry.ip = ip then { entry with mac := mac, tick := tick } :: rest
    else entry :: rememberEntry ip mac tick rest

def rememberArp (ip : UInt32) (mac : Mac) : World :=
  { world with net.arpEntries := rememberEntry ip mac world.ticks world.net.arpEntries }

end World

/-- `saturating_add` of one. -/
def saturatingSucc (count : UInt64) : UInt64 := if count + 1 = 0 then count else count + 1

/-- `saturating_add` of `usize`. -/
def saturatingAdd (left right : Nat) : Nat := min (left + right) (2 ^ 64 - 1)

/-- `checked_add` of `usize`. -/
def checkedAdd (left right : Nat) : Option Nat :=
  if left + right < 2 ^ 64 then some (left + right) else none

/-!
## Bytes on the wire

Big-endian integers at offsets of a packet, and the Internet checksum.
-/

def be16 (high low : UInt8) : UInt16 := UInt16.ofNat (high.toNat * 256 + low.toNat)

def readBe16 (bytes : List UInt8) (off : Nat) : Code UInt16 := do
  let high <- index bytes off
  let low <- index bytes (<- add 64 off 1)
  pure (be16 high low)

def readBe32 (bytes : List UInt8) (off : Nat) : Code UInt32 := do
  let first <- index bytes off
  let second <- index bytes (<- add 64 off 1)
  let third <- index bytes (<- add 64 off 2)
  let fourth <- index bytes (<- add 64 off 3)
  pure (UInt32.ofNat
    (((first.toNat * 256 + second.toNat) * 256 + third.toNat) * 256 + fourth.toNat))

def readMac (bytes : List UInt8) : Code Mac := do
  let first <- index bytes 0
  let second <- index bytes 1
  let third <- index bytes 2
  let fourth <- index bytes 3
  let fifth <- index bytes 4
  let sixth <- index bytes 5
  pure ⟨first, second, third, fourth, fifth, sixth⟩

/-- What `push_be16` appends. -/
def be16Bytes (value : UInt16) : List UInt8 :=
  [UInt8.ofNat (value.toNat / 256), UInt8.ofNat value.toNat]

/-- What `push_be32` appends. -/
def be32Bytes (value : UInt32) : List UInt8 :=
  [UInt8.ofNat (value.toNat / 2 ^ 24), UInt8.ofNat (value.toNat / 2 ^ 16),
    UInt8.ofNat (value.toNat / 2 ^ 8), UInt8.ofNat value.toNat]

/-- Add up the pairs of bytes in 32 bits; an odd last byte is a high one. -/
def sumChunks : Nat -> List UInt8 -> Code Nat
  | sum, high :: low :: rest => do
    turn
    let sum <- add 32 sum (be16 high low).toNat
    sumChunks sum rest
  | sum, [last] => add 32 sum (last.toNat * 256)
  | sum, [] => pure sum

/-- Add the upper half to the lower one until it is zero, in a number of turns. -/
def foldCarries : Nat -> Nat -> Code Nat
  | 0, _ => fault .unbounded
  | fuel + 1, sum =>
    if sum / 65536 = 0 then pure sum
    else do
      turn
      let sum <- add 32 (sum % 65536) (sum / 65536)
      foldCarries fuel sum

def checksum (bytes : List UInt8) : Code UInt16 := do
  let sum <- sumChunks 0 bytes
  let sum <- foldCarries 3 sum
  pure (~~~ (UInt16.ofNat sum))

/-- Write a checksum at an offset and the next one. -/
def storeChecksum (bytes : List UInt8) (off : Nat) (csum : UInt16) : Code (List UInt8) := do
  let bytes <- store bytes off (UInt8.ofNat (csum.toNat / 256))
  store bytes (off + 1) (UInt8.ofNat csum.toNat)

def tcpChecksum (src dst : UInt32) (tcp : List UInt8) : Code UInt16 := do
  let _ <- add 64 12 tcp.length
  checksum (be32Bytes src ++ be32Bytes dst ++ [0, ipProtoTcp] ++
    be16Bytes (UInt16.ofNat tcp.length) ++ tcp)

/-- The integer at an offset inside. -/
def wordAt (bytes : List UInt8) (off : Nat) : UInt16 :=
  be16 (bytes.getD off 0) (bytes.getD (off + 1) 0)

variable {bytes : List UInt8}

theorem readBe16_ensures {off turns : Nat} (inside : off + 2 <= bytes.length)
    (small : bytes.length < 2 ^ 63) :
    Ensures (readBe16 bytes off) turns (fun word => word = wordAt bytes off) := by
  refine .mono ?_ (Nat.zero_le turns) (fun _ here => here)
  refine (ensures_index (by omega)).andThen fun _ high => ?_
  refine (ensures_add (by omega)).andThen fun next same => ?_
  refine (ensures_index (by omega)).andThen fun _ low => .pure ?_
  rw [wordAt, List.getD, List.getD, high, <- same, low]
  rfl

theorem readBe32_ensures {off turns : Nat} (inside : off + 4 <= bytes.length)
    (small : bytes.length < 2 ^ 63) : Ensures (readBe32 bytes off) turns (fun _ => True) := by
  refine .mono ?_ (Nat.zero_le turns) (fun _ here => here)
  iterate 3
    refine (ensures_index (by omega)).andThen fun _ _ => ?_
    refine (ensures_add (by omega)).andThen fun next same => ?_
  refine (ensures_index (by omega)).andThen fun _ _ => ?_
  exact .pure trivial

theorem readMac_ensures (long : bytes.length = 6) : Ensures (readMac bytes) 0 (fun _ => True) := by
  iterate 6 refine (ensures_index (by omega)).andThen fun _ _ => ?_
  exact .pure trivial

/-- Each byte adds less than 65536 to the sum. -/
theorem sumChunks_ensures (sum : Nat) (bytes : List UInt8)
    (fits : sum + bytes.length * 65536 < 2 ^ 32) :
    Ensures (sumChunks sum bytes) bytes.length (fun total => total < 2 ^ 32) := by
  induction sum, bytes using sumChunks.induct with
  | case1 sum high low rest ih =>
    have value := (be16 high low).toNat_lt
    rw [List.length_cons, List.length_cons] at fits ⊢
    have counted : Ensures (sumChunks sum (high :: low :: rest)) (1 + rest.length)
        (fun total => total < 2 ^ 32) := by
      refine ensures_turn.bind fun _ _ => ?_
      refine (ensures_add (by omega)).andThen fun total same => ?_
      exact ih total (by omega)
    exact counted.mono (by omega) (fun _ here => here)
  | case2 sum last =>
    have value := last.toNat_lt
    rw [List.length_singleton, Nat.one_mul] at fits
    have room : sum + last.toNat * 256 < 2 ^ 32 := by omega
    exact (ensures_add room).mono (Nat.le_refl 1) fun total same => same ▸ room
  | case3 sum =>
    rw [List.length_nil, Nat.zero_mul] at fits
    exact .pure fits

/-- Two turns leave no carry. -/
theorem foldCarries_ensures {sum : Nat} (fits : sum < 2 ^ 32) :
    Ensures (foldCarries 3 sum) 2 (fun _ => True) := by
  rw [foldCarries]
  split
  · exact .pure trivial
  change Ensures _ (1 + 1) _
  refine ensures_turn.bind fun _ _ => ?_
  refine (ensures_add (by omega)).andThen fun first same => ?_
  rw [foldCarries]
  split
  · exact .pure trivial
  refine ensures_turn.atLast fun _ _ => ?_
  refine (ensures_add (by omega)).andThen fun second again => ?_
  rw [foldCarries, if_pos (by omega)]
  exact .pure trivial

theorem checksum_ensures (short : bytes.length < 65535) :
    Ensures (checksum bytes) (bytes.length + 2) (fun _ => True) := by
  refine (sumChunks_ensures 0 bytes (by omega)).bind fun sum fits => ?_
  exact (foldCarries_ensures fits).atLast fun total _ => .pure trivial

theorem storeChecksum_ensures {off : Nat} (inside : off + 1 < bytes.length) (csum : UInt16) :
    Ensures (storeChecksum bytes off csum) 0 (fun after => after.length = bytes.length) := by
  refine (ensures_store (by omega)).andThen fun middle same => ?_
  exact (ensures_store (by omega)).mono (Nat.le_refl _) fun after again => again.trans same

/-!
## Receiving TCP

What `handle_tcp` does with a segment under the lock of the network state: parse it,
find the socket that takes it, move its bytes to the receive buffer or keep them until
the gap before them is filled, and prepare the acknowledgement.
-/

def seqAtOrAfter (current target : UInt32) : Bool :=
  current == target || decide (current - target < 0x80000000)

def seqBefore (current target : UInt32) : Bool :=
  current != target && decide (target - current < 0x80000000)

variable (socket : TcpSocket)

namespace TcpSocket

def tcpBufferedBytes : Nat :=
  socket.pendingRx.foldl (fun total segment => saturatingAdd total segment.data.length)
    socket.rx.length

def tcpReceiveWindow : UInt16 :=
  UInt16.ofNat (min (tcpRxWindow - socket.tcpBufferedBytes) 65535)

def appendTcpPayload (payload : List UInt8) : Bool × TcpSocket :=
  if saturatingAdd socket.tcpBufferedBytes payload.length > tcpRxWindow then (false, socket)
  else (true, { socket with
    rx := socket.rx ++ payload
    ack := socket.ack + UInt32.ofNat payload.length })

/-- The loop of `drain_pending_tcp_payloads`, which takes a segment out in each turn but
the last. -/
def drainLoop : Nat -> Bool -> TcpSocket -> Code (Bool × TcpSocket)
  | 0, _, _ => fault .unbounded
  | fuel + 1, advanced, socket =>
    match socket.pendingRx.findIdx? (fun segment => segment.seq == socket.ack) with
    | none => pure (advanced, socket)
    | some pos => do
      let segment <- index socket.pendingRx pos
      let removed := { socket with pendingRx := socket.pendingRx.eraseIdx pos }
      match removed.appendTcpPayload segment.data with
      | (true, socket) => drainLoop fuel true socket
      | (false, _) => do
        -- `insert` needs a position inside the list or at its end
        let _ <- slice removed.pendingRx 0 pos
        pure (advanced, { removed with
          pendingRx := removed.pendingRx.insertIdx pos segment })

def drainPendingTcpPayloads : Code (Bool × TcpSocket) :=
  drainLoop (socket.pendingRx.length + 1) false socket

def storePendingTcpPayload (seq : UInt32) (payload : List UInt8) : Bool × TcpSocket :=
  if socket.pendingRx.length ≥ tcpOutOfOrderMax ∨
      socket.pendingRx.any (fun segment => segment.seq == seq) = true ∨
      (seq - socket.ack).toNat > tcpRxWindow ∨
      saturatingAdd socket.tcpBufferedBytes payload.length > tcpRxWindow then (false, socket)
  else (true, { socket with pendingRx := socket.pendingRx ++ [⟨seq, payload⟩] })

def receiveTcpPayload (seq : UInt32) (payload : List UInt8) : Code (Bool × TcpSocket) :=
  if payload.isEmpty then pure (false, socket)
  else if seq = socket.ack then
    match socket.appendTcpPayload payload with
    | (false, socket) => pure (false, socket)
    | (true, socket) => do
      let (_, socket) <- socket.drainPendingTcpPayloads
      pure (true, socket)
  else if seqBefore seq socket.ack then
    let offset := (socket.ack - seq).toNat
    if offset < payload.length then do
      let rest <- slice payload offset payload.length
      match socket.appendTcpPayload rest with
      | (false, socket) => pure (false, socket)
      | (true, socket) => do
        let (_, socket) <- socket.drainPendingTcpPayloads
        pure (true, socket)
    else pure (false, socket)
  else pure (socket.storePendingTcpPayload seq payload)

def takeReaders : List Nat × TcpSocket :=
  (socket.waitingReaders, { socket with waitingReaders := [] })

def takeWriters : List Nat × TcpSocket :=
  (socket.waitingWriters, { socket with waitingWriters := [] })

end TcpSocket

structure Segment where
  srcPort : UInt16
  dstPort : UInt16
  seq : UInt32
  ackNo : UInt32
  flags : UInt8
  payload : List UInt8

/-- The part of `handle_tcp` that reads the packet; `none` if it is dropped. -/
def parseSegment (packet : List UInt8) : Code (Option Segment) :=
  if packet.length < 20 then pure none
  else do
    let srcPort <- readBe16 packet 0
    let dstPort <- readBe16 packet 2
    let seq <- readBe32 packet 4
    let ackNo <- readBe32 packet 8
    let words <- index packet 12
    let dataOffset <- mul 64 (words >>> 4).toNat 4
    if dataOffset < 20 ∨ dataOffset > packet.length then pure none
    else do
      let flags <- index packet 13
      let payload <- slice packet dataOffset packet.length
      pure (some ⟨srcPort, dstPort, seq, ackNo, flags, payload⟩)

/-- What a socket makes of a segment: the socket, the tasks to wake and the reply. -/
structure Handled where
  socket : TcpSocket
  woken : List Nat
  reply : Option TcpReply

namespace TcpSocket

/-- The acknowledgement of what has been received. -/
def acknowledgement (socket : TcpSocket) (srcIp : UInt32) (segment : Segment) : TcpReply where
  srcPort := socket.localPort
  dstIp := srcIp
  dstPort := segment.srcPort
  seq := socket.seq
  ack := socket.ack
  flags := 0x10
  window := socket.tcpReceiveWindow

/-- The answer to a connection attempt. -/
def establish (srcIp : UInt32) (segment : Segment) : Handled :=
  let socket := { socket with
    remoteIp := srcIp
    remotePort := segment.srcPort
    seq := segment.ackNo
    txAcked := segment.ackNo
    ack := segment.seq + 1
    state := .established }
  let (woken, socket) := socket.takeWriters
  ⟨socket, woken, some (socket.acknowledgement srcIp segment)⟩

/-- The peer resets the connection. -/
def reset (socket : TcpSocket) : Handled :=
  let socket := { socket with peerClosed := true, state := .closed, pendingRx := [] }
  let (readers, socket) := socket.takeReaders
  let (writers, socket) := socket.takeWriters
  ⟨socket, readers ++ writers, none⟩

/-- The acknowledgement number of a segment. -/
def noteAck (segment : Segment) : List Nat × TcpSocket :=
  if segment.flags &&& 0x10 != 0 && seqAtOrAfter segment.ackNo socket.txAcked then
    { socket with txAcked := segment.ackNo }.takeWriters
  else ([], socket)

/-- The payload of a segment. -/
def notePayload (segment : Segment) : Code (List Nat × TcpSocket) :=
  if segment.payload.isEmpty then pure ([], socket)
  else do
    let (received, socket) <- socket.receiveTcpPayload segment.seq segment.payload
    pure (if received then socket.takeReaders else ([], socket))

/-- The end of the peer's stream. -/
def noteFin (segment : Segment) : List Nat × TcpSocket :=
  if segment.flags &&& 0x01 != 0 &&
      segment.seq + UInt32.ofNat segment.payload.length == socket.ack then
    let socket := { socket with ack := socket.ack + 1, peerClosed := true, state := .closeWait }
    let (readers, socket) := socket.takeReaders
    let (writers, socket) := socket.takeWriters
    (readers ++ writers, socket)
  else ([], socket)

/-- A segment for a connection that is open. -/
def receive (srcIp : UInt32) (segment : Segment) : Code Handled :=
  if segment.flags &&& 0x04 != 0 then pure socket.reset
  else do
    let (acked, socket) := socket.noteAck segment
    let (readable, socket) <- socket.notePayload segment
    let (ended, socket) := socket.noteFin segment
    let shouldAck := !segment.payload.isEmpty || segment.flags &&& 0x01 != 0
    pure ⟨socket, acked ++ readable ++ ended,
      if shouldAck then some (socket.acknowledgement srcIp segment) else none⟩

/-- The addresses and ports of a segment are those of the socket. -/
def isAddressed (srcIp : UInt32) (segment : Segment) : Bool :=
  socket.localPort == segment.dstPort && (socket.remoteIp == 0 ||
      socket.remoteIp == srcIp && socket.remotePort == segment.srcPort)

/-- One turn of the loop over the sockets; `none` goes on to the next one. -/
def handleSegment (srcIp : UInt32) (segment : Segment) : Code (Option Handled) :=
  if !socket.isAddressed srcIp segment then pure none
  else if socket.state = .synSent ∧ segment.flags &&& 0x12 = 0x12 then
    pure (some (socket.establish srcIp segment))
  else if socket.state = .established ∨ socket.state = .closeWait then do
    let handled <- socket.receive srcIp segment
    pure (some handled)
  else pure none

end TcpSocket

/-- The loop over the sockets. -/
def handleSlots (srcIp : UInt32) (segment : Segment) :
    List (Option TcpSocket) -> Code (List (Option TcpSocket) × List Nat × Option TcpReply)
  | [] => pure ([], [], none)
  | none :: rest => do
    let (after, woken, reply) <- handleSlots srcIp segment rest
    pure (none :: after, woken, reply)
  | some socket :: rest => do
    match <- socket.handleSegment srcIp segment with
    | some handled => pure (some handled.socket :: rest, handled.woken, handled.reply)
    | none => do
      let (after, woken, reply) <- handleSlots srcIp segment rest
      pure (some socket :: after, woken, reply)

variable (sockets : List (Option TcpSocket))

/-- `handle_tcp` up to the reply: the sockets, the tasks to wake and the reply. -/
def receiveTcp (srcIp : UInt32) (packet : List UInt8) :
    Code (List (Option TcpSocket) × List Nat × Option TcpReply) := do
  match <- parseSegment packet with
  | none => pure (sockets, [], none)
  | some segment => handleSlots srcIp segment sockets

def socketIndex (socketFd : UInt64) : Option Nat :=
  if socketFd < socketBase then none else some (socketFd - socketBase).toNat

def socketMutLocked (owner : Nat) (socketFd : UInt64) : Except String (Nat × TcpSocket) :=
  match socketIndex socketFd with
  | none => .error "bad socket"
  | some idx =>
    match sockets[idx]?.join with
    | none => .error "bad socket"
    | some socket =>
      if socket.owner ≠ owner then .error "socket owner mismatch" else .ok (idx, socket)

/-- How one turn of the loop of `socket_recv` ends: with bytes and perhaps a window
update to send, at the end of the stream, or with another turn after a poll. -/
inductive RecvTurn where
  | received (bytes : List UInt8) (windowUpdate : Option TcpReply)
  | ended
  | again

/-- The window update of a read that has opened a closed window. -/
def TcpSocket.windowUpdate (before after : TcpSocket) : Option TcpReply :=
  if before.tcpReceiveWindow = 0 ∧ after.tcpReceiveWindow > 0 ∧ after.remoteIp ≠ 0 ∧
      (after.state = .established ∨ after.state = .closeWait) then
    some {
      srcPort := after.localPort
      dstIp := after.remoteIp
      dstPort := after.remotePort
      seq := after.seq
      ack := after.ack
      flags := 0x10
      window := after.tcpReceiveWindow }
  else none

/-- One turn of the loop of `socket_recv`, for a buffer of a length. -/
def socketRecv (owner : Nat) (socketFd : UInt64)
    (len : Nat) : Except String (RecvTurn × List (Option TcpSocket)) :=
  if len = 0 then .ok (.received [] none, sockets)
  else
    match socketMutLocked sockets owner socketFd with
    | .error reason => .error reason
    | .ok (idx, socket) =>
      if socket.rx.isEmpty then
        .ok (if socket.peerClosed then .ended else .again, sockets)
      else
        let n := min len socket.rx.length
        let after := { socket with rx := socket.rx.drop n }
        .ok (.received (socket.rx.take n) (socket.windowUpdate after), sockets.set idx (some after))

/-!
## Rules for receiving TCP

The receive path never faults, whatever the socket and the segment are, and keeps
every property that its few changes of a socket keep: bytes appended to the buffer,
a segment moved there from the queue, and a segment queued.
-/

theorem parseSegment_ensures {packet : List UInt8} (small : packet.length < 2 ^ 63) :
    Ensures (parseSegment packet) 0 (fun _ => True) := by
  unfold parseSegment
  split
  · exact .pure trivial
  next long =>
  refine (readBe16_ensures (by omega) small).andThen fun _ _ => ?_
  refine (readBe16_ensures (by omega) small).andThen fun _ _ => ?_
  refine (readBe32_ensures (by omega) small).andThen fun _ _ => ?_
  refine (readBe32_ensures (by omega) small).andThen fun _ _ => ?_
  refine (ensures_index (by omega)).andThen fun words _ => ?_
  have nibble : (words >>> 4).toNat < 256 := UInt8.toNat_lt _
  refine (ensures_mul (by omega)).andThen fun dataOffset same => ?_
  split
  · exact .pure trivial
  next offset =>
  rw [not_or] at offset
  refine (ensures_index (by omega)).andThen fun _ _ => ?_
  refine (ensures_slice (by omega) (Nat.le_refl _)).andThen fun _ _ => ?_
  exact .pure trivial

namespace TcpSocket

/-- Moving the segment that comes next out of the queue keeps a property. -/
def DrainKeeps (holds : TcpSocket -> Prop) : Prop :=
  forall (socket after : TcpSocket) (pos : Nat) (segment : TcpPendingSegment), holds socket ->
    socket.pendingRx[pos]? = some segment -> segment.seq = socket.ack ->
    appendTcpPayload { socket with pendingRx := socket.pendingRx.eraseIdx pos } segment.data =
      (true, after) -> holds after

variable {holds : TcpSocket -> Prop} {socket after : TcpSocket}
  {payload : List UInt8} {seq : UInt32} {segment : Segment}

theorem appendTcpPayload_pendingRx (appended : socket.appendTcpPayload payload = (true, after)) :
    after.pendingRx = socket.pendingRx := by
  unfold appendTcpPayload at appended
  split at appended
  · cases appended
  · cases appended
    rfl

theorem drainLoop_ensures (keeps : DrainKeeps holds) {fuel : Nat} {advanced : Bool}
    (enough : socket.pendingRx.length < fuel) (here : holds socket) :
    Ensures (drainLoop fuel advanced socket) 0 (fun outcome => holds outcome.2) := by
  induction fuel generalizing advanced socket with
  | zero => omega
  | succ fuel ih =>
    rw [drainLoop]
    split
    · exact .pure here
    next pos found =>
    rw [List.findIdx?_eq_some_iff_getElem] at found
    rcases found with ⟨inside, next, _⟩
    refine (ensures_index inside).andThen fun segment present => ?_
    have listed : socket.pendingRx[pos] = segment := by
      rw [List.getElem?_eq_getElem inside] at present
      exact Option.some.inj present
    rw [listed] at next
    dsimp only
    generalize appended : appendTcpPayload
      { socket with pendingRx := socket.pendingRx.eraseIdx pos } segment.data = outcome
    rcases outcome with ⟨_ | _, after⟩
    · refine (ensures_slice (Nat.zero_le _) ?_).andThen fun _ _ => ?_
      · rw [List.length_eraseIdx_of_lt inside]
        omega
      · refine .pure ?_
        have same : (socket.pendingRx.eraseIdx pos).insertIdx pos segment = socket.pendingRx := by
          rw [<- listed, List.insertIdx_eraseIdx_getElem inside]
        rw [same]
        exact here
    · have length := appendTcpPayload_pendingRx appended
      refine ih ?_ (keeps socket after pos segment here present (by simpa using next) appended)
      rw [length, List.length_eraseIdx_of_lt inside]
      omega

theorem drainPendingTcpPayloads_ensures (keeps : DrainKeeps holds) (here : holds socket) :
    Ensures socket.drainPendingTcpPayloads 0 (fun outcome => holds outcome.2) :=
  drainLoop_ensures keeps (Nat.lt_succ_self _) here

/-- Taking a payload in keeps a property: appended where it comes next, appended from
where it comes next, or queued. -/
structure TakeKeeps (holds : TcpSocket -> Prop) (seq : UInt32) (payload : List UInt8) :
    Prop where
  drains : DrainKeeps holds
  next : forall socket after : TcpSocket, holds socket -> payload ≠ [] -> seq = socket.ack ->
    socket.appendTcpPayload payload = (true, after) -> holds after
  late : forall socket after : TcpSocket, holds socket -> seqBefore seq socket.ack = true ->
    (socket.ack - seq).toNat < payload.length ->
    socket.appendTcpPayload (payload.drop (socket.ack - seq).toNat) = (true, after) ->
    holds after
  queues : forall socket after : TcpSocket, holds socket -> payload ≠ [] -> seq ≠ socket.ack ->
    seqBefore seq socket.ack = false ->
    socket.storePendingTcpPayload seq payload = (true, after) -> holds after

theorem appendTcpPayload_false (refused : socket.appendTcpPayload payload = (false, after)) :
    after = socket := by
  unfold appendTcpPayload at refused
  split at refused
  · cases refused
    rfl
  · cases refused

theorem storePendingTcpPayload_false
    (refused : socket.storePendingTcpPayload seq payload = (false, after)) : after = socket := by
  unfold storePendingTcpPayload at refused
  split at refused
  · cases refused
    rfl
  · cases refused

theorem receiveTcpPayload_ensures (keeps : TakeKeeps holds seq payload) (here : holds socket) :
    Ensures (socket.receiveTcpPayload seq payload) 0 (fun outcome => holds outcome.2) := by
  have drained {after : TcpSocket} (there : holds after) : Ensures (do
        let (_, socket) <- after.drainPendingTcpPayloads
        pure (true, socket)) 0 (fun outcome : Bool × TcpSocket => holds outcome.2) :=
    (drainPendingTcpPayloads_ensures keeps.drains there).andThen fun _ last => .pure last
  unfold receiveTcpPayload
  split
  · exact .pure here
  next some =>
  have some : payload ≠ [] := by simpa using some
  split
  · next comes =>
    generalize appended : socket.appendTcpPayload payload = outcome
    rcases outcome with ⟨_ | _, after⟩
    · exact .pure (appendTcpPayload_false appended ▸ here)
    · exact drained (keeps.next socket after here some comes appended)
  next elsewhere =>
  split
  · next before =>
    dsimp only
    split
    · next overlaps =>
      refine (ensures_slice (Nat.le_of_lt overlaps) (Nat.le_refl _)).andThen fun rest same => ?_
      rw [List.take_length] at same
      rw [same.1]
      generalize appended : socket.appendTcpPayload _ = outcome
      rcases outcome with ⟨_ | _, after⟩
      · exact .pure (appendTcpPayload_false appended ▸ here)
      · exact drained (keeps.late socket after here before overlaps appended)
    · exact .pure here
  next notBefore =>
  generalize stored : socket.storePendingTcpPayload seq payload = outcome
  rcases outcome with ⟨_ | _, after⟩
  · exact .pure (storePendingTcpPayload_false stored ▸ here)
  · exact .pure (keeps.queues socket after here some elsewhere (by simpa using notBefore) stored)

theorem notePayload_ensures (keeps : TakeKeeps holds segment.seq segment.payload)
    (wakes : ∀ socket : TcpSocket, holds socket -> holds socket.takeReaders.2) (here : holds socket)
    : Ensures (socket.notePayload segment) 0 (fun outcome => holds outcome.2) := by
  unfold notePayload
  split
  · exact .pure here
  · refine (receiveTcpPayload_ensures keeps here).andThen fun outcome there => .pure ?_
    rcases outcome with ⟨_ | _, after⟩
    · exact there
    · exact wakes after there

theorem receive_ensures {srcIp : UInt32} (keeps : TakeKeeps holds segment.seq segment.payload)
    (wakes : ∀ socket : TcpSocket, holds socket -> holds socket.takeReaders.2)
    (after : TcpSocket -> Prop) (resets : segment.flags &&& 0x04 != 0 -> after socket.reset.socket)
    (acks : holds (socket.noteAck segment).2)
    (ends : ∀ socket : TcpSocket, (segment.flags &&& 0x04 != 0) = false -> holds socket ->
      after (socket.noteFin segment).2)
    : Ensures (socket.receive srcIp segment) 0 (fun handled => after handled.socket) := by
  unfold receive
  split
  · next reset => exact .pure (resets reset)
  · next open_ =>
    exact (notePayload_ensures keeps wakes acks).andThen fun outcome there =>
      .pure (ends outcome.2 (by simpa using open_) there)

/-- Every property is trivially kept. -/
theorem takeKeeps_true (seq : UInt32) (payload : List UInt8) :
    TakeKeeps (fun _ => True) seq payload :=
  ⟨fun _ _ _ _ _ _ _ _ => trivial, fun _ _ _ _ _ _ => trivial, fun _ _ _ _ _ _ => trivial,
    fun _ _ _ _ _ _ _ => trivial⟩

theorem handleSegment_ensures (socket : TcpSocket) (srcIp : UInt32) (segment : Segment) :
    Ensures (socket.handleSegment srcIp segment) 0 (fun _ => True) := by
  unfold handleSegment
  split
  · exact .pure trivial
  split
  · exact .pure trivial
  split
  · refine Ensures.andThen (receive_ensures (takeKeeps_true _ _) (fun _ _ => trivial)
      (fun _ => True) (fun _ => trivial) trivial (fun _ _ _ => trivial)) fun _ _ => .pure trivial
  · exact .pure trivial

end TcpSocket

theorem handleSlots_ensures (srcIp : UInt32) (segment : Segment)
    (sockets : List (Option TcpSocket)) :
    Ensures (handleSlots srcIp segment sockets) 0 (fun _ => True) := by
  induction sockets with
  | nil => exact .pure trivial
  | cons slot rest ih =>
    cases slot with
    | none => exact ih.andThen fun _ _ => .pure trivial
    | some socket =>
      refine (socket.handleSegment_ensures srcIp segment).andThen fun handled _ => ?_
      cases handled with
      | some handled => exact .pure trivial
      | none => exact ih.andThen fun _ _ => .pure trivial

theorem receiveTcp_ensures (sockets : List (Option TcpSocket)) (srcIp : UInt32)
    {packet : List UInt8} (small : packet.length < 2 ^ 63) :
    Ensures (receiveTcp sockets srcIp packet) 0 (fun _ => True) := by
  refine (parseSegment_ensures small).andThen fun parsed _ => ?_
  cases parsed with
  | none => exact .pure trivial
  | some segment => exact handleSlots_ensures srcIp segment sockets

end CoolOs.Net
