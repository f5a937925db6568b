import CoolOs.Net.Tcp
import Mathlib.Data.List.Perm.Basic

namespace CoolOs.Net

open Checked Checked.Code List

/-!
# The peer's stream

Segments cut from a byte stream arrive in any order, twice and overlapping, and the
task reads now and then.  What it has read and what waits in the buffer is always a
beginning of the stream, the acknowledgement number says how long it is, and the
connection is closed by the peer only at the end of the stream.
-/

variable {stream : List UInt8} {isn : UInt32} {srcIp : UInt32}

/-- The sequence number of a position of the stream, from the initial one. -/
def seqAt (isn : UInt32) (offset : Nat) : UInt32 := isn + 1 + UInt32.ofNat offset

variable {first second : Nat}

theorem seqAt_add (isn : UInt32) (offset length : Nat) :
    seqAt isn offset + UInt32.ofNat length = seqAt isn (offset + length) := by
  rw [seqAt, seqAt, UInt32.ofNat_add, UInt32.add_assoc, UInt32.add_assoc]

theorem seqAt_succ (isn : UInt32) (offset : Nat) : seqAt isn offset + 1 = seqAt isn (offset + 1) :=
  seqAt_add isn offset 1

theorem toNat_seqAt (isn : UInt32) (offset : Nat) :
    (seqAt isn offset).toNat = (isn.toNat + 1 + offset) % 2 ^ 32 := by
  rw [seqAt, UInt32.toNat_add, UInt32.toNat_add, UInt32.toNat_ofNat]
  change ((isn.toNat + 1) % 2 ^ 32 + offset % 2 ^ 32) % 2 ^ 32 = _
  rw [<- Nat.add_mod]

theorem seqAt_inj (near : first < 2 ^ 32) (far : second < 2 ^ 32) :
    seqAt isn first = seqAt isn second <-> first = second := by
  have bound := isn.toNat_lt
  rw [<- UInt32.toNat_inj, toNat_seqAt, toNat_seqAt]
  omega

/-- How far one position is before another, around the sequence numbers. -/
theorem seqAt_sub_toNat (isn : UInt32) (near : first < 2 ^ 32) (far : second < 2 ^ 32) :
    (seqAt isn second - seqAt isn first).toNat =
      if first <= second then second - first else 2 ^ 32 - (first - second) := by
  have bound := isn.toNat_lt
  rw [UInt32.toNat_sub, toNat_seqAt, toNat_seqAt]
  split <;> omega

/-- Positions less than half a round apart compare as they should. -/
theorem seqBefore_seqAt (isn : UInt32) (near : first < 2 ^ 31) (far : second <= 2 ^ 31) :
    seqBefore (seqAt isn first) (seqAt isn second) = true <->
      first < second ∧ second - first < 2 ^ 31 := by
  rw [seqBefore, Bool.and_eq_true, bne_iff_ne, ne_eq, decide_eq_true_eq,
    seqAt_inj (by omega) (by omega), UInt32.lt_iff_toNat_lt,
    seqAt_sub_toNat isn (by omega) (by omega)]
  change _ ∧ _ < 2 ^ 31 <-> _
  split <;> omega

/-- The segment is cut from the stream, and a FIN is at its end. -/
def Segment.Cut (stream : List UInt8) (isn : UInt32) (segment : Segment) : Prop :=
  ∃ offset ≤ stream.length, segment.seq = seqAt isn offset ∧
    segment.payload <+: stream.drop offset ∧
    (segment.flags &&& 0x01 != 0 -> offset + segment.payload.length = stream.length)

namespace TcpSocket

/-- The bytes in the buffer and in the queue. -/
def buffered (socket : TcpSocket) : Nat :=
  socket.rx.length + (socket.pendingRx.map (fun segment => segment.data.length)).sum

variable {socket after : TcpSocket} {payload : List UInt8}

section

variable (fits : socket.buffered <= tcpRxWindow)
include fits

theorem tcpBufferedBytes_eq : socket.tcpBufferedBytes = socket.buffered := by
  have adds (segments : List TcpPendingSegment) (start : Nat)
      (small : start + (segments.map (fun segment => segment.data.length)).sum < 2 ^ 64) :
      segments.foldl (fun total segment => saturatingAdd total segment.data.length) start =
        start + (segments.map (fun segment => segment.data.length)).sum := by
    induction segments generalizing start with
    | nil => rfl
    | cons segment rest ih =>
      rw [map_cons, sum_cons] at small ⊢
      have exact_ : saturatingAdd start segment.data.length = start + segment.data.length :=
        Nat.min_eq_left (by omega)
      rw [foldl_cons, exact_, ih _ (by omega), Nat.add_assoc]
  exact adds socket.pendingRx socket.rx.length (Nat.lt_of_le_of_lt fits (by decide))

/-- Appending a payload that fits. -/
theorem appendTcpPayload_cases (appended : socket.appendTcpPayload payload = (true, after)) :
    socket.buffered + payload.length <= tcpRxWindow ∧ after = { socket with
        rx := socket.rx ++ payload
        ack := socket.ack + UInt32.ofNat payload.length } := by
  unfold appendTcpPayload at appended
  rw [tcpBufferedBytes_eq fits, saturatingAdd] at appended
  split at appended
  · cases appended
  · cases appended
    refine ⟨?_, rfl⟩
    simp only [tcpRxWindow] at *
    omega

/-- Queueing a payload that fits. -/
theorem storePendingTcpPayload_cases {seq : UInt32}
    (stored : socket.storePendingTcpPayload seq payload = (true, after)) :
    socket.buffered + payload.length <= tcpRxWindow ∧
      after = { socket with pendingRx := socket.pendingRx ++ [⟨seq, payload⟩] } := by
  unfold storePendingTcpPayload at stored
  rw [tcpBufferedBytes_eq fits, saturatingAdd] at stored
  split at stored
  · cases stored
  · next accepted =>
    cases stored
    refine ⟨?_, rfl⟩
    simp only [tcpRxWindow] at *
    omega

end

theorem buffered_eraseIdx {pos : Nat} {segment : TcpPendingSegment}
    (present : socket.pendingRx[pos]? = some segment) :
    buffered { socket with pendingRx := socket.pendingRx.eraseIdx pos } + segment.data.length =
      socket.buffered := by
  have parts := getElem_cons_eraseIdx_perm (List.getElem?_eq_some_iff.mp present).1
  rw [(List.getElem?_eq_some_iff.mp present).2] at parts
  have sums := (parts.map (fun segment => segment.data.length)).sum_nat
  rw [map_cons, sum_cons] at sums
  simp only [buffered]
  omega

/-- A beginning of the stream has been received, `ack` is the number of the next byte,
or of the byte after the end, and the queue holds pieces of the stream. -/
structure InOrder (stream : List UInt8) (isn : UInt32) (received : List UInt8)
    (finished : Bool) (socket : TcpSocket) : Prop where
  prefixed : received ++ socket.rx <+: stream
  ack : socket.ack = seqAt isn ((received ++ socket.rx).length + finished.toNat)
  whole : finished = true -> received ++ socket.rx = stream
  pieces : ∀ segment ∈ socket.pendingRx, segment.data ≠ [] ∧
    Exists fun offset => segment.seq = seqAt isn offset ∧ segment.data <+: stream.drop offset
  window : socket.buffered <= tcpRxWindow

/-- The owner and the addresses are the same. -/
structure SameEnds (before after : TcpSocket) : Prop where
  owner : after.owner = before.owner
  localPort : after.localPort = before.localPort
  remoteIp : after.remoteIp = before.remoteIp
  remotePort : after.remotePort = before.remotePort

/-- The state of the connection is the same, too. -/
structure Alike (before after : TcpSocket) : Prop extends SameEnds before after where
  state : after.state = before.state
  peerClosed : after.peerClosed = before.peerClosed

theorem SameEnds.trans {first second third : TcpSocket} (start : first.SameEnds second)
    (rest : second.SameEnds third) : first.SameEnds third :=
  ⟨rest.owner.trans start.owner, rest.localPort.trans start.localPort,
    rest.remoteIp.trans start.remoteIp, rest.remotePort.trans start.remotePort⟩

theorem Alike.trans {first second third : TcpSocket} (start : first.Alike second)
    (rest : second.Alike third) : first.Alike third :=
  ⟨start.toSameEnds.trans rest.toSameEnds, rest.state.trans start.state,
    rest.peerClosed.trans start.peerClosed⟩

/-- An appended payload changes neither. -/
theorem Alike.append {base : TcpSocket} (alike : base.Alike socket)
    (fits : socket.buffered <= tcpRxWindow)
    (appended : socket.appendTcpPayload payload = (true, after)) : base.Alike after := by
  rcases appendTcpPayload_cases fits appended with ⟨_, rfl⟩
  exact alike.trans ⟨⟨rfl, rfl, rfl, rfl⟩, rfl, rfl⟩

section

variable {received : List UInt8} {finished : Bool} {socket after : TcpSocket} {segment : Segment}

theorem InOrder.length_le (order : InOrder stream isn received finished socket) :
    (received ++ socket.rx).length <= stream.length := order.prefixed.length_le

/-- The next bytes of the stream are appended. -/
theorem InOrder.append {data : List UInt8} (order : InOrder stream isn received false socket)
    (next : data <+: stream.drop (received ++ socket.rx).length)
    (appended : socket.appendTcpPayload data = (true, after)) :
    InOrder stream isn received false after := by
  rcases appendTcpPayload_cases order.window appended with ⟨room, rfl⟩
  refine ⟨?_, ?_, nofun, order.pieces, ?_⟩
  · have whole : received ++ socket.rx ++ stream.drop (received ++ socket.rx).length = stream :=
      prefix_iff_eq_append.mp order.prefixed
    have longer := (prefix_append_right_inj (received ++ socket.rx)).mpr next
    rwa [whole, append_assoc] at longer
  · rw [order.ack, seqAt_add]
    simp [Nat.add_assoc]
  · simp only [buffered, length_append] at room ⊢
    omega

variable (short : stream.length < 2 ^ 31)
include short

/-- No piece of the stream comes after its end. -/
theorem InOrder.unfinished (order : InOrder stream isn received finished socket) {offset : Nat}
    (inside : offset <= stream.length) (next : seqAt isn offset = socket.ack) :
    finished = false ∧ offset = (received ++ socket.rx).length := by
  have bound := order.length_le
  rw [order.ack] at next
  cases finished with
  | false =>
    rw [Bool.toNat_false, Nat.add_zero, seqAt_inj (by omega) (by omega)] at next
    exact ⟨rfl, next⟩
  | true =>
    rw [order.whole rfl, Bool.toNat_true, seqAt_inj (by omega) (by omega)] at next
    omega

theorem InOrder.drainKeeps (base : TcpSocket) :
    DrainKeeps (fun socket => InOrder stream isn received finished socket ∧ base.Alike socket) := by
  rintro socket after pos segment ⟨order, alike⟩ present next appended
  rcases order.pieces segment (mem_of_getElem? present) with ⟨some, offset, seq, piece⟩
  have inside : offset <= stream.length := by
    have length := piece.length_le
    have positive := length_pos_iff.mpr some
    rw [length_drop] at length
    omega
  rcases order.unfinished short inside (seq.symm.trans next) with ⟨rfl, here⟩
  have smaller := buffered_eraseIdx present
  have removed : InOrder stream isn received false
      { socket with pendingRx := socket.pendingRx.eraseIdx pos } :=
    ⟨order.prefixed, order.ack, order.whole,
      fun other listed => order.pieces other (mem_of_mem_eraseIdx listed),
      Nat.le_trans (by omega) order.window⟩
  refine ⟨removed.append (here ▸ piece) appended, Alike.append ?_ removed.window appended⟩
  exact alike.trans ⟨⟨rfl, rfl, rfl, rfl⟩, rfl, rfl⟩

theorem InOrder.takeKeeps (base : TcpSocket) (cut : segment.Cut stream isn) :
    TakeKeeps (fun socket => InOrder stream isn received finished socket ∧ base.Alike socket)
      segment.seq segment.payload := by
  rcases cut with ⟨offset, inside, seq, piece, _⟩
  refine ⟨drainKeeps short base, ?_, ?_, ?_⟩
  · rintro socket after ⟨order, alike⟩ _ next appended
    rcases order.unfinished short inside (seq.symm.trans next) with ⟨rfl, here⟩
    exact ⟨order.append (here ▸ piece) appended, alike.append order.window appended⟩
  · rintro socket after ⟨order, alike⟩ before overlaps appended
    refine ⟨?_, alike.append order.window appended⟩
    have bound := order.length_le
    have length := piece.length_le
    rw [length_drop] at length
    have few : finished.toNat <= 1 := Bool.toNat_le finished
    rw [seq, order.ack, seqBefore_seqAt isn (by omega) (by omega)] at before
    have distance : (socket.ack - segment.seq).toNat =
        (received ++ socket.rx).length + finished.toNat - offset := by
      rw [seq, order.ack, seqAt_sub_toNat isn (by omega) (by omega), if_pos (Nat.le_of_lt before.1)]
    rw [distance] at overlaps appended
    cases finished with
    | true =>
      have all := congrArg List.length (order.whole rfl)
      rw [Bool.toNat_true] at *
      omega
    | false =>
      rw [Bool.toNat_false, Nat.add_zero] at *
      refine order.append ?_ appended
      -- the rest of the piece starts where the beginning of the stream ends
      rcases piece with ⟨later, rest⟩
      have shifted := congrArg (List.drop ((received ++ socket.rx).length - offset)) rest
      rw [drop_append_of_le_length (by omega), drop_drop,
        Nat.add_sub_cancel' (Nat.le_of_lt before.1)] at shifted
      exact ⟨later, shifted⟩
  · rintro socket after ⟨order, alike⟩ some _ _ stored
    rcases storePendingTcpPayload_cases order.window stored with ⟨room, rfl⟩
    refine ⟨⟨order.prefixed, order.ack, order.whole, ?_, ?_⟩,
      alike.trans ⟨⟨rfl, rfl, rfl, rfl⟩, rfl, rfl⟩⟩
    · intro other listed
      rcases mem_append.mp listed with old | fresh
      · exact order.pieces other old
      · rw [mem_singleton.mp fresh]
        exact ⟨some, offset, seq, piece⟩
    · simp only [buffered, map_append, sum_append, map_cons, map_nil, sum_cons, sum_nil] at room ⊢
      omega

/-- What holds of a socket at every moment of a run.  Unless the peer has reset the
connection, `peer_closed` says whether its FIN has been accepted. -/
structure Delivered (stream : List UInt8) (isn : UInt32) (reset : Bool) (base : TcpSocket)
    (received : List UInt8) (socket : TcpSocket) : Prop where
  progress : Exists fun finished => InOrder stream isn received finished socket ∧
    (reset = false -> socket.peerClosed = finished)
  ends : base.SameEnds socket
  active : socket.state ≠ .synSent

/-- The peer's FIN is accepted at the end of the stream, and only there. -/
theorem Delivered.noteFin {reset : Bool} {base : TcpSocket}
    (cut : segment.Cut stream isn) (order : InOrder stream isn received finished socket)
    (closed : reset = false -> socket.peerClosed = finished) (ends : base.SameEnds socket)
    (active : socket.state ≠ .synSent) :
    Delivered stream isn reset base received (socket.noteFin segment).2 := by
  unfold TcpSocket.noteFin
  split
  · next accepted =>
    rw [Bool.and_eq_true, beq_iff_eq] at accepted
    rcases cut with ⟨offset, inside, seq, piece, last⟩
    have whole := last accepted.1
    have next : seqAt isn stream.length = socket.ack := by rw [<- accepted.2, seq, seqAt_add, whole]
    rcases order.unfinished short (Nat.le_refl _) next with ⟨rfl, here⟩
    have all : received ++ socket.rx = stream := order.prefixed.eq_of_length here.symm
    refine ⟨⟨true, ⟨order.prefixed, ?_, fun _ => all, order.pieces, order.window⟩,
      fun _ => rfl⟩, ends.trans ⟨rfl, rfl, rfl, rfl⟩, nofun⟩
    rw [order.ack, seqAt_succ]
    rfl
  · exact ⟨⟨finished, order, closed⟩, ends, active⟩

theorem Delivered.receive {reset : Bool} {base : TcpSocket} (cut : segment.Cut stream isn)
    (delivered : Delivered stream isn reset base received socket) (srcIp : UInt32) :
    Ensures (socket.receive srcIp segment) 0 (fun handled =>
      Delivered stream isn (reset || segment.flags &&& 0x04 != 0) base received
        handled.socket) := by
  rcases delivered.progress with ⟨finished, order, closed⟩
  have keeps : TakeKeeps (fun after => InOrder stream isn received finished after ∧
      socket.Alike after) segment.seq segment.payload := InOrder.takeKeeps short socket cut
  refine receive_ensures keeps ?_ (fun socket =>
    Delivered stream isn (reset || segment.flags &&& 0x04 != 0) base received socket) ?_ ?_ ?_
  · rintro after ⟨order, alike⟩
    exact ⟨⟨order.prefixed, order.ack, order.whole, order.pieces, order.window⟩,
      alike.trans ⟨⟨rfl, rfl, rfl, rfl⟩, rfl, rfl⟩⟩
  · intro resets
    refine ⟨⟨finished, ⟨order.prefixed, order.ack, order.whole, nofun, ?_⟩, ?_⟩,
      delivered.ends.trans ⟨rfl, rfl, rfl, rfl⟩, nofun⟩
    · exact Nat.le_trans (Nat.le_add_right _ _) order.window
    · rw [resets, Bool.or_true]
      nofun
  · unfold TcpSocket.noteAck
    split
    · exact ⟨⟨order.prefixed, order.ack, order.whole, order.pieces, order.window⟩,
        ⟨rfl, rfl, rfl, rfl⟩, rfl, rfl⟩
    · exact ⟨order, ⟨rfl, rfl, rfl, rfl⟩, rfl, rfl⟩
  · rintro after open_ ⟨order, alike⟩
    rw [open_, Bool.or_false]
    refine noteFin short cut order (fun kept => alike.peerClosed.trans (closed kept))
      (delivered.ends.trans alike.toSameEnds) ?_
    rw [alike.state]
    exact delivered.active

end

/-- The loop over the sockets goes past this one. -/
def passes (socket : TcpSocket) (srcIp : UInt32) (segment : Segment) : Bool :=
  !(socket.isAddressed srcIp segment &&
    (socket.state == .synSent && segment.flags &&& 0x12 == 0x12 ||
      socket.state == .established || socket.state == .closeWait))

variable {segment : Segment}

theorem handleSegment_passes (passes : socket.passes srcIp segment = true) :
    socket.handleSegment srcIp segment = pure none := by
  unfold handleSegment
  simp only [TcpSocket.passes, Bool.not_eq_true', Bool.and_eq_false_iff, Bool.or_eq_false_iff,
    beq_eq_false_iff_ne, ne_eq] at passes
  split
  · rfl
  next addressed =>
  have open_ := passes.resolve_left (by simpa using addressed)
  rw [if_neg (by tauto), if_neg (by tauto)]

theorem Delivered.handleSegment {received : List UInt8} {reset : Bool} {base : TcpSocket}
    (short : stream.length < 2 ^ 31) (cut : segment.Cut stream isn)
    (delivered : Delivered stream isn reset base received socket) (srcIp : UInt32) :
    Ensures (socket.handleSegment srcIp segment) 0 (fun handled =>
      Delivered stream isn (reset || segment.flags &&& 0x04 != 0) base received
        ((handled.map Handled.socket).getD socket)) := by
  have stays : Delivered stream isn (reset || segment.flags &&& 0x04 != 0) base received socket := by
    rcases delivered.progress with ⟨finished, order, closed⟩
    refine ⟨⟨finished, order, fun kept => closed ?_⟩, delivered.ends, delivered.active⟩
    exact (Bool.or_eq_false_iff.mp kept).1
  unfold TcpSocket.handleSegment
  split
  · exact .pure stays
  rw [if_neg fun attempt => delivered.active attempt.1]
  split
  · exact (delivered.receive short cut srcIp).andThen fun _ there => .pure there
  · exact .pure stays

end TcpSocket

/-- The segment reaches the socket that no earlier one takes it from. -/
theorem handleSlots_reaches {segment : Segment} {earlier later : List (Option TcpSocket)}
    {socket : TcpSocket}
    (passed : ∀ other, some other ∈ earlier -> other.passes srcIp segment = true)
    {holds : TcpSocket -> Prop}
    (handles : Ensures (socket.handleSegment srcIp segment) 0
      (fun handled => holds ((handled.map Handled.socket).getD socket)))
    :
    Ensures (handleSlots srcIp segment (earlier ++ some socket :: later)) 0 (fun outcome =>
      ∃ final rest,
        outcome.1 = earlier ++ some final :: rest ∧ holds final) := by
  induction earlier with
  | nil =>
    refine handles.andThen fun handled there => ?_
    cases handled with
    | some handled => exact .pure ⟨handled.socket, later, rfl, there⟩
    | none =>
      exact (handleSlots_ensures srcIp segment later).andThen fun outcome _ =>
        .pure ⟨socket, outcome.1, rfl, there⟩
  | cons slot earlier ih =>
    have before := ih fun other listed => passed other (mem_cons_of_mem _ listed)
    cases slot with
    | none =>
      refine before.andThen fun outcome there => .pure ?_
      rcases there with ⟨final, rest, same, holds⟩
      exact ⟨final, rest, congrArg (cons none) same, holds⟩
    | some other =>
      rw [cons_append, handleSlots, TcpSocket.handleSegment_passes (passed other mem_cons_self)]
      have goesOn : Ensures (pure none) 0 (fun handled : Option Handled => handled = none) :=
        .pure rfl
      refine goesOn.andThen fun handled same => ?_
      subst same
      refine before.andThen fun outcome there => .pure ?_
      rcases there with ⟨final, rest, same, holds⟩
      exact ⟨final, rest, congrArg (cons (some other)) same, holds⟩

/-! ## Runs -/

/-- What happens to a socket: a packet arrives from an address, or the owner reads. -/
inductive StreamEvent where
  | packet (srcIp : UInt32) (bytes : List UInt8)
  | recv (len : Nat)

/-- The sockets, and what has been read from one of them. -/
structure Connection where
  sockets : List (Option TcpSocket)
  received : List UInt8

namespace Connection

/-- One event; the owner reads from the file descriptor of the socket. -/
def step (owner : Nat) (socketFd : UInt64) (connection : Connection) :
    StreamEvent -> Code Connection
  | .packet srcIp bytes => do
    let (sockets, _, _) <- receiveTcp connection.sockets srcIp bytes
    pure { connection with sockets := sockets }
  | .recv len =>
    match socketRecv connection.sockets owner socketFd len with
    | .ok (.received bytes _, sockets) => pure ⟨sockets, connection.received ++ bytes⟩
    | .ok (_, sockets) => pure { connection with sockets := sockets }
    | .error _ => pure connection

def run (owner : Nat) (socketFd : UInt64) (connection : Connection)
    (events : List StreamEvent) : Code Connection :=
  events.foldlM (step owner socketFd) connection

end Connection

/-- A packet carries a segment that is cut from the stream, and no earlier socket takes
it. -/
def StreamEvent.OfStream (stream : List UInt8) (isn : UInt32)
    (earlier : List (Option TcpSocket)) : StreamEvent -> Prop
  | .packet srcIp bytes => Exists fun segment => parseSegment bytes = pure (some segment) ∧
      segment.Cut stream isn ∧
      forall other, some other ∈ earlier -> other.passes srcIp segment = true
  | .recv _ => True

/-- The packet carries a segment with a RST. -/
def StreamEvent.resets : StreamEvent -> Bool
  | .packet _ bytes =>
    (parseSegment bytes).value?.join.any (fun segment => segment.flags &&& 0x04 != 0)
  | .recv _ => false

section

variable {earlier : List (Option TcpSocket)} {base : TcpSocket} {socketFd : UInt64} {reset : Bool}

/-- The socket is where it was, and what has been received of the stream. -/
def Connection.Holds (stream : List UInt8) (isn : UInt32) (earlier : List (Option TcpSocket))
    (base : TcpSocket) (reset : Bool) (connection : Connection) : Prop :=
  ∃ socket later,
    connection.sockets = earlier ++ some socket :: later ∧
      TcpSocket.Delivered stream isn reset base connection.received socket

variable {connection : Connection} {owner : Nat} {socket : TcpSocket}

theorem Connection.step_packet (short : stream.length < 2 ^ 31)
    (holds : connection.Holds stream isn earlier base reset) {bytes : List UInt8}
    (ofStream : (StreamEvent.packet srcIp bytes).OfStream stream isn earlier) :
    Ensures (connection.step owner socketFd (.packet srcIp bytes)) 0
      (Connection.Holds stream isn earlier base
        (reset || (StreamEvent.packet srcIp bytes).resets)) := by
  rcases holds with ⟨socket, later, sockets, delivered⟩
  rcases ofStream with ⟨segment, parsed, cut, passed⟩
  have resets : (StreamEvent.packet srcIp bytes).resets = (segment.flags &&& 0x04 != 0) := by
    rw [StreamEvent.resets, parsed]
    rfl
  have received : Ensures (receiveTcp connection.sockets srcIp bytes) 0 (fun outcome =>
      ∃ final rest, outcome.1 = earlier ++ some final :: rest ∧
        TcpSocket.Delivered stream isn (reset || segment.flags &&& 0x04 != 0) base
          connection.received final) := by
    have carried : Ensures (parseSegment bytes) 0 (fun found => found = some segment) := by
      rw [parsed]
      exact .pure rfl
    refine carried.andThen fun found same => ?_
    subst same
    rw [sockets]
    exact handleSlots_reaches passed (delivered.handleSegment short cut srcIp)
  rw [resets]
  exact received.andThen fun outcome there => .pure there

theorem socketMutLocked_self {sockets : List (Option TcpSocket)} {idx : Nat}
    (named : socketIndex socketFd = some idx) (found : sockets[idx]? = some (some socket))
    (owned : socket.owner = owner) :
    socketMutLocked sockets owner socketFd = .ok (idx, socket) := by
  simp [socketMutLocked, named, found, owned]

/-- What is read moves from the buffer to what has been received. -/
theorem TcpSocket.Delivered.read {received : List UInt8}
    (delivered : TcpSocket.Delivered stream isn reset base received socket) (count : Nat) :
    TcpSocket.Delivered stream isn reset base (received ++ socket.rx.take count)
      { socket with rx := socket.rx.drop count } := by
  rcases delivered.progress with ⟨finished, order, closed⟩
  have same : received ++ socket.rx.take count ++ socket.rx.drop count = received ++ socket.rx := by
    rw [append_assoc, take_append_drop]
  refine ⟨⟨finished, ⟨?_, ?_, ?_, order.pieces, ?_⟩, closed⟩,
    delivered.ends.trans ⟨rfl, rfl, rfl, rfl⟩, delivered.active⟩
  · rw [same]
    exact order.prefixed
  · rw [same]
    exact order.ack
  · rw [same]
    exact order.whole
  · refine Nat.le_trans ?_ order.window
    simp only [TcpSocket.buffered, length_drop]
    omega

theorem Connection.step_recv (holds : connection.Holds stream isn earlier base reset)
    (named : socketIndex socketFd = some earlier.length) (len : Nat) :
    Ensures (connection.step base.owner socketFd (.recv len)) 0
      (Connection.Holds stream isn earlier base reset) := by
  rcases holds with ⟨socket, later, sockets, delivered⟩
  have found : connection.sockets[earlier.length]? = some (some socket) := by
    rw [sockets, getElem?_append_right (Nat.le_refl _), Nat.sub_self]
    rfl
  have locked := socketMutLocked_self named found delivered.ends.owner
  have same : connection.Holds stream isn earlier base reset := ⟨socket, later, sockets, delivered⟩
  unfold Connection.step socketRecv
  dsimp only
  by_cases empty : len = 0
  · rw [if_pos empty]
    refine .pure ⟨socket, later, sockets, ?_⟩
    rw [append_nil]
    exact delivered
  rw [if_neg empty, locked]
  dsimp only
  by_cases nothing : socket.rx.isEmpty = true
  · rw [if_pos nothing]
    by_cases closed : socket.peerClosed = true
    · rw [if_pos closed]
      exact .pure same
    · rw [if_neg closed]
      exact .pure same
  · rw [if_neg nothing]
    refine .pure ⟨_, later, ?_, delivered.read (min len socket.rx.length)⟩
    rw [sockets, set_append_right _ _ (Nat.le_refl _), Nat.sub_self]
    rfl

/-- A socket whose connection has just been established. -/
def TcpSocket.opened (socket : TcpSocket) (isn : UInt32) : TcpSocket :=
  { socket with
    ack := isn + 1
    state := .established
    rx := []
    pendingRx := []
    peerClosed := false }

theorem TcpSocket.opened_delivered (stream : List UInt8) (isn : UInt32) (socket : TcpSocket) :
    TcpSocket.Delivered stream isn false socket [] (socket.opened isn) :=
  ⟨⟨false, ⟨ nil_prefix, by simp [opened, seqAt], nofun, nofun, by simp [buffered, opened]⟩,
    fun _ => rfl⟩, ⟨rfl, rfl, rfl, rfl⟩, nofun⟩

theorem Connection.run_holds (short : stream.length < 2 ^ 31)
    (named : socketIndex socketFd = some earlier.length) (events : List StreamEvent)
    (ofStream : ∀ event ∈ events, event.OfStream stream isn earlier)
    (holds : connection.Holds stream isn earlier base reset) :
    Ensures (connection.run base.owner socketFd events) 0
      (Connection.Holds stream isn earlier base (reset || events.any StreamEvent.resets)) := by
  induction events generalizing connection reset with
  | nil =>
    rw [any_nil, Bool.or_false]
    exact .pure holds
  | cons event rest ih =>
    have first : Ensures (connection.step base.owner socketFd event) 0
        (Connection.Holds stream isn earlier base (reset || event.resets)) := by
      cases event with
      | packet srcIp bytes => exact step_packet short holds (ofStream _ mem_cons_self)
      | recv len =>
        rw [StreamEvent.resets, Bool.or_false]
        exact step_recv holds named len
    rw [any_cons, <- Bool.or_assoc]
    rw [run, foldlM_cons]
    exact first.andThen fun after there =>
      ih (fun other listed => ofStream other (mem_cons_of_mem _ listed)) there

/-- What has been read from a socket and what is buffered is a beginning of the stream,
with the acknowledgement number and the window that belong to it.  Unless it has been
reset, the peer has closed it exactly if its FIN has been accepted, which is at the
end of the stream. -/
def Connection.Streams (stream : List UInt8) (isn : UInt32) (idx : Nat)
    (events : List StreamEvent) (connection : Connection) : Prop :=
  Exists fun socket => connection.sockets[idx]? = some (some socket) ∧
    (connection.received ++ socket.rx <+: stream) ∧ socket.buffered <= tcpRxWindow ∧
    Exists fun finished : Bool =>
      socket.ack = isn + 1 + UInt32.ofNat (connection.received ++ socket.rx).length +
        (if finished then 1 else 0) ∧
      (finished = true -> connection.received ++ socket.rx = stream) ∧
      (events.any StreamEvent.resets = false -> socket.peerClosed = finished)

/-- For every stream, every order, repetition and overlap of segments cut from it and
all reads in between, the socket delivers the stream in order, and nothing faults. -/
theorem run_delivers_stream (short : stream.length < 2 ^ 31) (socket : TcpSocket)
    (later : List (Option TcpSocket)) (named : socketIndex socketFd = some earlier.length)
    (events : List StreamEvent) (ofStream : ∀ event ∈ events, event.OfStream stream isn earlier) :
    Ensures (Connection.run socket.owner socketFd
        ⟨earlier ++ some (socket.opened isn) :: later, []⟩ events) 0
      (Connection.Streams stream isn earlier.length events) := by
  have start : Connection.Holds stream isn earlier socket false
      ⟨earlier ++ some (socket.opened isn) :: later, []⟩ :=
    ⟨_, later, rfl, socket.opened_delivered stream isn⟩
  refine (Connection.run_holds short named events ofStream start).mono (Nat.le_refl _) ?_
  rintro connection ⟨final, rest, sockets, delivered⟩
  rcases delivered.progress with ⟨finished, order, closed⟩
  refine ⟨final, ?_, order.prefixed, order.window, finished, ?_, order.whole, closed⟩
  · rw [sockets, getElem?_append_right (Nat.le_refl _), Nat.sub_self]
    rfl
  · rw [order.ack]
    cases finished with
    | false => simp [seqAt]
    | true => exact (seqAt_succ isn _).symm

end

/-- A segment from port 80 to port 4000 with a sequence number, flags and a payload. -/
def samplePacket (seq : UInt32) (flags : UInt8) (payload : List UInt8) : List UInt8 :=
  be16Bytes 80 ++ be16Bytes 4000 ++ be32Bytes seq ++ be32Bytes 0 ++ [0x50, flags] ++
    [0, 0, 0, 0, 0, 0] ++ payload

/-- A socket of task 1 for the segments. -/
def sampleSocket : TcpSocket where
  owner := 1
  localPort := 4000
  remoteIp := 7
  remotePort := 80
  seq := 0
  txAcked := 0
  ack := 0
  state := .established
  rx := []
  pendingRx := []
  peerClosed := false
  waitingReaders := []
  waitingWriters := []

/-- The end of a stream of three bytes comes before its beginning. -/
def sampleEvents : List StreamEvent :=
  [.packet 7 (samplePacket 1 0x11 [33]), .packet 7 (samplePacket 0xffffffff 0x10 [104, 105]),
    .recv 8, .packet 7 (samplePacket 1 0x11 [33])]

/-- All of it is delivered. -/
theorem run_delivers_sample :
    Ensures (Connection.run 1 1025 ⟨[none, some (sampleSocket.opened 0xfffffffe)], []⟩
      sampleEvents) 0 (Connection.Streams [104, 105, 33] 0xfffffffe 1 sampleEvents) := by
  have passed (srcIp : UInt32) (segment : Segment) (other : TcpSocket)
      (listed : some other ∈ ([none] : List (Option TcpSocket))) :
      other.passes srcIp segment = true := by simp at listed
  have last : (StreamEvent.packet 7 (samplePacket 1 0x11 [33])).OfStream [104, 105, 33]
      0xfffffffe [none] :=
    ⟨⟨80, 4000, 1, 0, 0x11, [33]⟩, rfl, ⟨2, by decide, by decide, by decide, by decide⟩, passed 7 _⟩
  have first : (StreamEvent.packet 7 (samplePacket 0xffffffff 0x10 [104, 105])).OfStream
      [104, 105, 33] 0xfffffffe [none] :=
    ⟨⟨80, 4000, 0xffffffff, 0, 0x10, [104, 105]⟩, rfl,
      ⟨0, by decide, by decide, by decide, by decide⟩, passed 7 _⟩
  have short : ([104, 105, 33] : List UInt8).length < 2 ^ 31 := by decide
  have named : socketIndex 1025 = some ([none] : List (Option TcpSocket)).length := by decide
  refine run_delivers_stream short sampleSocket [] named sampleEvents ?_
  intro event listed
  simp only [sampleEvents, mem_cons, not_mem_nil, or_false] at listed
  rcases listed with rfl | rfl | rfl | rfl
  · exact last
  · exact first
  · exact trivial
  · exact last

end CoolOs.Net
