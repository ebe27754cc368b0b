import ClaudeManager.Json.Value

/-!
# The holder channel

The framing of the stream between holder and brain: what `FrameReader` makes of the bytes
and descriptors that `recvmsg` hands over, what the two send calls put on the stream, and
how the kernel carries descriptors along with bytes. Descriptors are values of any type.
-/

namespace Holder

open Json

/-- Hard cap on one frame's JSON payload. -/
def maxFrameBytes : Nat := 1024 * 1024

/-- Tolerated ancillary capacity per `recvmsg`. -/
def maxFdsPerRecv : Nat := 8

/-- The size of the buffer one `recvmsg` reads into. -/
def recvBytes : Nat := 65536

/-- One decoded frame. -/
structure Frame where
  v : String
  reqId : Option UInt64
  nfds : UInt8
  body : Value
  deriving DecidableEq

/-- `serde_json` at the type of frames. -/
class Serde where
  /-- `serde_json::to_vec`. -/
  toVec : Frame → List UInt8
  /-- `serde_json::from_slice`, with the parser's own message. -/
  fromSlice : List UInt8 → Except String Frame

/-- A protocol violation: the channel is dead. -/
structure ProtocolViolation where
  text : String
  deriving DecidableEq

/-! ## Wire encoding -/

/-- `u32::to_le_bytes`. -/
def toLeBytes (n : Nat) : List UInt8 :=
  [.ofNat n, .ofNat (n / 2 ^ 8), .ofNat (n / 2 ^ 16), .ofNat (n / 2 ^ 24)]

/-- `u32::from_le_bytes` of the first four bytes. -/
def fromLeBytes (b : List UInt8) : Nat :=
  match b with
  | b₀ :: b₁ :: b₂ :: b₃ :: _ =>
    b₀.toNat + b₁.toNat * 2 ^ 8 + b₂.toNat * 2 ^ 16 + b₃.toNat * 2 ^ 24
  | _ => 0

/-- Encode to wire bytes: the payload's length, then the payload. -/
def Frame.toWire [Serde] (f : Frame) : List UInt8 :=
  toLeBytes (Serde.toVec f).length ++ Serde.toVec f

@[simp] theorem length_toLeBytes {n : Nat} : (toLeBytes n).length = 4 := rfl

theorem fromLeBytes_toLeBytes {n : Nat} (h : n < 2 ^ 32) (rest : List UInt8) :
    fromLeBytes (toLeBytes n ++ rest) = n := by
  simp only [toLeBytes, List.cons_append, fromLeBytes, UInt8.toNat_ofNat']
  omega

theorem fromLeBytes_append {b c : List UInt8} (h : 4 ≤ b.length) :
    fromLeBytes (b ++ c) = fromLeBytes b := by
  match b, h with
  | _ :: _ :: _ :: _ :: _, _ => rfl

/-! ## Receive side -/

variable {δ : Type}

/-- What one `recvmsg` came back with. -/
inductive Recv (δ : Type) where
  /-- `EAGAIN` or `EINTR`. -/
  | again
  /-- `ECONNRESET`: the peer closed with input unread. -/
  | reset
  | failed (err : String)
  | message (bytes : List UInt8) (fds : List δ) (ctrunc : Bool)

/-- What one `feed` call observed. -/
inductive FeedStatus where
  | progress
  | wouldBlock
  | eof
  deriving DecidableEq

/-- Incremental frame decoder. -/
structure FrameReader (δ : Type) where
  buf : List UInt8
  /-- Descriptors received but not yet claimed by a completed frame. -/
  pendingFds : List δ

namespace FrameReader

def new : FrameReader δ := ⟨[], []⟩

def isIdle (r : FrameReader δ) : Bool := r.buf.isEmpty && r.pendingFds.isEmpty

/-- One `recvmsg` into the buffer. -/
def feed (r : FrameReader δ) (recv : Recv δ) :
    Except ProtocolViolation FeedStatus × FrameReader δ :=
  match recv with
  | .again => (.ok .wouldBlock, r)
  | .reset => (.ok .eof, r)
  | .failed err => (.error ⟨s!"recvmsg: {err}"⟩, r)
  | .message bytes fds ctrunc =>
    if ctrunc then (.error ⟨"MSG_CTRUNC: ancillary data truncated (law item 3)"⟩, r)
    else
      let r := { r with pendingFds := r.pendingFds ++ fds }
      if bytes.isEmpty then (.ok .eof, r)
      else (.ok .progress, { r with buf := r.buf ++ bytes })

/-- The claim of a decoded frame's descriptors, its bytes being drained already. -/
def claim (r : FrameReader δ) (frame : Frame) :
    Except ProtocolViolation (Option (Frame × List δ)) × FrameReader δ :=
  let want := frame.nfds.toNat
  if r.pendingFds.length < want then
    let arrived := r.pendingFds.length
    (.error ⟨s!"frame '{frame.v}' declared {want} fds, {arrived} arrived"⟩, r)
  else
    let fds := r.pendingFds.take want
    let rest := r.pendingFds.drop want
    -- surplus is looked for only where no byte of a next frame is buffered
    if ¬ rest.isEmpty ∧ r.buf.isEmpty then
      let surplus := rest.length
      (.error ⟨s!"{surplus} undeclared fd(s) on frame '{frame.v}'"⟩, { r with pendingFds := [] })
    else
      (.ok (some (frame, fds)), { r with pendingFds := rest })

/-- Pop the next complete frame, claiming exactly its declared descriptors. -/
def nextFrame [Serde] (r : FrameReader δ) :
    Except ProtocolViolation (Option (Frame × List δ)) × FrameReader δ :=
  if r.buf.length < 4 then (.ok none, r)
  else
    let len := fromLeBytes r.buf
    if len > maxFrameBytes then
      (.error ⟨s!"frame length {len} exceeds MAX_FRAME_BYTES {maxFrameBytes} (C7)"⟩, r)
    else
      let total := 4 + len
      if r.buf.length < total then (.ok none, r)
      else
        match Serde.fromSlice ((r.buf.take total).drop 4) with
        | .error e => (.error ⟨s!"frame JSON: {e}"⟩, r)
        | .ok frame => claim { r with buf := r.buf.drop total } frame

end FrameReader

/-! ## Send side and kernel -/

/-- A frame handed to the send calls, with the descriptors attached to its first byte. Its
payload fits the cap, which `to_wire` asserts. -/
structure Message [Serde] (δ : Type) where
  frame : Frame
  fds : List δ
  fits : (Serde.toVec frame).length ≤ maxFrameBytes

/-- The frame declares the number of descriptors it was sent with. -/
def Message.Declared [Serde] (m : Message δ) : Prop := m.frame.nfds.toNat = m.fds.length

instance [Serde] (m : Message δ) : Decidable m.Declared := inferInstanceAs (Decidable (_ = _))

/-- The bytes of one `sendmsg` that the peer has not received, with the descriptors that
travel with the first of them. -/
structure Segment (δ : Type) where
  bytes : List UInt8
  fds : List δ

/-- What a `recvmsg` of `n` bytes takes off the stream: the bytes of segments without
descriptors run together, and a segment that carries descriptors ends the call. -/
def takeBytes : Nat → List (Segment δ) → (List UInt8 × List δ) × List (Segment δ)
  | 0, queue => (([], []), queue)
  | _, [] => (([], []), [])
  | n + 1, s :: rest =>
    if ¬ s.fds.isEmpty ∨ n + 1 < s.bytes.length then
      let left := s.bytes.drop (n + 1)
      ((s.bytes.take (n + 1), s.fds), if left.isEmpty then rest else ⟨left, []⟩ :: rest)
    else
      let more := takeBytes (n + 1 - s.bytes.length) rest
      ((s.bytes ++ more.1.1, more.1.2), more.2)

/-- One direction of a channel: what is being sent, what is in flight, and the reader with
what it has returned so far. -/
structure Link [Serde] (δ : Type) where
  sent : List (Message δ)
  /-- What `send_rest` has still to send of the last frame. -/
  unsent : List UInt8
  queue : List (Segment δ)
  reader : FrameReader δ
  returned : List (Frame × List δ)
  violation : Option ProtocolViolation

inductive LinkAction [Serde] (δ : Type) where
  /-- `send_first` on a frame, which accepts `n` bytes. -/
  | sendFirst (m : Message δ) (n : Nat)
  /-- `send_rest`, which accepts `n` bytes. -/
  | sendRest (n : Nat)
  /-- `feed`, whose `recvmsg` returns up to `n` bytes. -/
  | feed (n : Nat)
  /-- `feed` on an interrupted or empty read. -/
  | feedAgain
  | nextFrame

namespace Link

variable [Serde]

def new : Link δ := ⟨[], [], [], .new, [], none⟩

/-- The link after one `feed`. -/
def fed (l : Link δ) (recv : Recv δ) (queue : List (Segment δ)) : Link δ :=
  match l.reader.feed recv with
  | (.ok _, reader) => { l with reader := reader, queue := queue }
  | (.error v, reader) => { l with reader := reader, queue := queue, violation := some v }

/-- The link after one `next_frame`. -/
def popped (l : Link δ) : Link δ :=
  match l.reader.nextFrame with
  | (.ok none, reader) => { l with reader := reader }
  | (.ok (some hit), reader) => { l with reader := reader, returned := l.returned ++ [hit] }
  | (.error v, reader) => { l with reader := reader, violation := some v }

/-- One action, where it is possible: a send call accepts at least one byte, a frame starts
when the last one is out, and nothing is read past a violation. -/
def step (l : Link δ) : LinkAction δ → Option (Link δ)
  | .sendFirst m n =>
    let wire := m.frame.toWire
    if l.unsent.isEmpty ∧ 0 < n ∧ n ≤ wire.length then
      some { l with
        sent := l.sent ++ [m]
        unsent := wire.drop n
        queue := l.queue ++ [⟨wire.take n, m.fds⟩] }
    else none
  | .sendRest n =>
    if 0 < n ∧ n ≤ l.unsent.length then
      some { l with
        unsent := l.unsent.drop n
        queue := l.queue ++ [⟨l.unsent.take n, []⟩] }
    else none
  | .feed n =>
    if l.violation.isNone ∧ 0 < n ∧ n ≤ recvBytes ∧ ¬ l.queue.isEmpty then
      let taken := takeBytes n l.queue
      some (l.fed (.message taken.1.1 taken.1.2 (decide (maxFdsPerRecv < taken.1.2.length))) taken.2)
    else none
  | .feedAgain => if l.violation.isNone then some (l.fed .again l.queue) else none
  | .nextFrame => if l.violation.isNone then some l.popped else none

/-- The link after the actions in order, where each is possible. -/
def run (l : Link δ) : List (LinkAction δ) → Option (Link δ)
  | [] => some l
  | a :: rest => (l.step a).bind fun l' => l'.run rest

end Link

end Holder
