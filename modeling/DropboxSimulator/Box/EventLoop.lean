import DropboxSimulator.Box.Inotify

/-!
# EventLoop — the walk over a buffer of events

`read` on the inotify descriptor fills a buffer with records of different sizes, each a header of
16 bytes and a name of `len` bytes.  The loop of `th_func_inotify` goes from record to record by an
offset that it moves on inside the branch for events with a name.

* `InotifyEvent` : a record, and its bytes;
* `eventLoop`    : the loop, with a log of the records it has looked at and what it sent for each;
* `Batch`        : a buffer that `read` has filled.
-/

namespace DropboxSimulator
namespace Box

open Library

/-! ## Records -/

/-- The bits of the masks that the loop asks for. -/
def inMovedFrom : UInt32 := 0x40
def inMovedTo : UInt32 := 0x80
def inCloseWrite : UInt32 := 0x8
def inDelete : UInt32 := 0x200

/-- `sizeof(struct inotify_event)`. -/
abbrev monitorSingleEventSize : Nat := 16

/-- `BUFFER_LENGHT`: room for 2048 events with names of 32 bytes. -/
abbrev bufferLength : Nat := 2048 * (monitorSingleEventSize + 32)

/-- `struct inotify_event`, with the `len` bytes of its name. -/
structure InotifyEvent where
  wd : Int32
  mask : UInt32
  cookie : UInt32
  len : UInt32
  name : CharArray len.toNat
  deriving DecidableEq

/-- The four bytes of a `uint32_t`. -/
def uint32Bytes (x : UInt32) : Bytes :=
  leBytes 4 x.toNat

/-- The `uint32_t` that four bytes hold. -/
def uint32OfBytes (bs : Bytes) : UInt32 :=
  UInt32.ofNat (leValue bs)

namespace InotifyEvent

/-- The record as it lies in the buffer. -/
def bytes (e : InotifyEvent) : Bytes :=
  int32Bytes e.wd ++ (uint32Bytes e.mask ++ (uint32Bytes e.cookie ++
    (uint32Bytes e.len ++ e.name.val)))

/-- The record at an offset of the buffer; `none` where it goes past the end of the buffer. -/
def read (buffer : Bytes) (i : Nat) : Option InotifyEvent :=
  let header := buffer.drop i
  let len := uint32OfBytes ((header.drop 12).take 4)
  if h : i + monitorSingleEventSize + len.toNat ≤ buffer.length then
    some
      { wd := int32OfBytes (header.take 4)
        mask := uint32OfBytes ((header.drop 4).take 4)
        cookie := uint32OfBytes ((header.drop 8).take 4)
        len := len
        name := CharArray.ofSlice buffer (i + monitorSingleEventSize) h }
  else
    none

/-- What the loop does for an event with a name, if the flag is not set. -/
def request (e : InotifyEvent) : Option Request :=
  let name := e.name.string
  if e.mask &&& inDelete ≠ 0 then
    some (.delete name)
  else if e.mask &&& inCloseWrite ≠ 0 then
    some (.upload name)
  else if e.mask &&& inMovedFrom ≠ 0 then
    if goutputstream <:+: name then none else some (.delete name)
  else if e.mask &&& inMovedTo ≠ 0 then
    some (.upload name)
  else
    none

end InotifyEvent

/-! ## The loop -/

/-- The events that the loop has looked at, each with what was sent for it. -/
abbrev Visits := List (InotifyEvent × Option Request)

/-- The loop over the events of the buffer from offset `i` on, for at most `fuel` rounds; `none`
when it has not come to its end by then.  The flag is read anew in each round. -/
def eventLoop (instructionSourceIsServer : Nat → Bool) (buffer : Bytes) (totalRead : Nat) :
    Nat → Nat → Visits → Option Visits
  | 0, _, _ => none
  | fuel + 1, i, visits =>
      if i < totalRead then
        match InotifyEvent.read buffer i with
        | none => none
        | some event =>
            if event.len ≠ 0 then
              eventLoop instructionSourceIsServer buffer totalRead fuel
                (i + (monitorSingleEventSize + event.len.toNat))
                (visits ++ [(event, if instructionSourceIsServer visits.length then none
                  else event.request)])
            else
              -- the offset is moved on only in the other branch
              eventLoop instructionSourceIsServer buffer totalRead fuel i
                (visits ++ [(event, none)])
      else
        some visits

/-- The visits of the loop to events that all have names, from the round with number `k` on. -/
def visitsTo (instructionSourceIsServer : Nat → Bool) : Nat → List InotifyEvent → Visits
  | _, [] => []
  | k, e :: es =>
      (e, if instructionSourceIsServer k then none else e.request) ::
        visitsTo instructionSourceIsServer (k + 1) es

/-- A buffer with the events that one `read` has put into it, and what it held behind them. -/
structure Batch where
  events : List InotifyEvent
  behind : Bytes
  fits : (events.flatMap InotifyEvent.bytes).length + behind.length = bufferLength

namespace Batch

def totalRead (b : Batch) : Nat :=
  (b.events.flatMap InotifyEvent.bytes).length

def buffer (b : Batch) : Bytes :=
  b.events.flatMap InotifyEvent.bytes ++ b.behind

/-- The loop comes to its end and has looked at each event once, in their order. -/
def Visited (instructionSourceIsServer : Nat → Bool) (b : Batch) : Prop :=
  ∃ fuel visits, eventLoop instructionSourceIsServer b.buffer b.totalRead fuel 0 [] = some visits ∧
    visits.map Prod.fst = b.events

end Batch

section Walking

variable {flag : Nat → Bool} {buffer front behind : Bytes} {events : List InotifyEvent}
variable {e : InotifyEvent} {i totalRead fuel : Nat} {visits : Visits}

@[simp] theorem length_uint32Bytes (x : UInt32) : (uint32Bytes x).length = 4 := by
  simp [uint32Bytes]

@[simp] theorem uint32OfBytes_uint32Bytes (x : UInt32) : uint32OfBytes (uint32Bytes x) = x := by
  have hlt : x.toNat < 256 ^ 4 := x.toNat_lt
  simp [uint32OfBytes, uint32Bytes, leValue_leBytes_of_lt hlt]

theorem InotifyEvent.length_bytes (e : InotifyEvent) :
    e.bytes.length = monitorSingleEventSize + e.len.toNat := by
  have hname := e.name.property
  simp only [InotifyEvent.bytes, List.length_append, length_int32Bytes, length_uint32Bytes, hname,
    monitorSingleEventSize]
  omega

/-- Records are equal when their numbers and the bytes of their names are. -/
theorem InotifyEvent.ext_val {e e' : InotifyEvent} (hwd : e.wd = e'.wd) (hmask : e.mask = e'.mask)
    (hcookie : e.cookie = e'.cookie) (hlen : e.len = e'.len) (hname : e.name.val = e'.name.val) :
    e = e' := by
  rcases e with ⟨wd, mask, cookie, len, name⟩
  rcases e' with ⟨wd', mask', cookie', len', name'⟩
  dsimp only at hwd hmask hcookie hlen
  subst hwd hmask hcookie hlen
  have hbytes : name = name' := Subtype.ext hname
  rw [hbytes]

/-- A record is read back from where it was put. -/
theorem InotifyEvent.read_bytes (hbuffer : buffer = front ++ (e.bytes ++ behind)) :
    InotifyEvent.read buffer front.length = some e := by
  have hheader : buffer.drop front.length = int32Bytes e.wd ++ (uint32Bytes e.mask ++
      (uint32Bytes e.cookie ++ (uint32Bytes e.len ++ (e.name.val ++ behind)))) := by
    rw [hbuffer, List.drop_left]
    simp [InotifyEvent.bytes]
  have hlen : uint32OfBytes (((buffer.drop front.length).drop 12).take 4) = e.len := by
    simp [hheader, List.drop_append, List.drop_eq_nil_of_le]
  have hfits : front.length + monitorSingleEventSize + e.len.toNat ≤ buffer.length := by
    have htotal := congrArg List.length hbuffer
    simp only [List.length_append, InotifyEvent.length_bytes] at htotal
    omega
  -- the name is what lies behind the header
  have hname : (buffer.drop (front.length + monitorSingleEventSize)).take e.len.toNat =
      e.name.val := by
    rw [← List.drop_drop, hheader]
    simp [List.drop_append, List.drop_eq_nil_of_le, monitorSingleEventSize, e.name.property]
  unfold InotifyEvent.read
  rw [dif_pos (by rwa [hlen]), Option.some.injEq]
  refine InotifyEvent.ext_val ?_ ?_ ?_ hlen ?_
  · simp [hheader]
  · simp [hheader]
  · simp [hheader, List.drop_append, List.drop_eq_nil_of_le]
  · simp only [CharArray.ofSlice, hlen]
    exact hname

/-- A round on an event with a name. -/
theorem eventLoop_named (hbuffer : buffer = front ++ (e.bytes ++ behind))
    (hi : front.length < totalRead) (hlen : e.len ≠ 0) :
    eventLoop flag buffer totalRead (fuel + 1) front.length visits =
      eventLoop flag buffer totalRead fuel (front ++ e.bytes).length
        (visits ++ [(e, if flag visits.length then none else e.request)]) := by
  rw [eventLoop, if_pos hi, InotifyEvent.read_bytes hbuffer]
  dsimp only
  rw [if_pos hlen, List.length_append, e.length_bytes]

/-- From an event without a name the loop does not get on. -/
theorem eventLoop_nameless (hread : InotifyEvent.read buffer i = some e) (hi : i < totalRead)
    (hlen : e.len = 0) (fuel : Nat) (visits : Visits) :
    eventLoop flag buffer totalRead fuel i visits = none := by
  induction fuel generalizing visits with
  | zero =>
      rfl
  | succ fuel ih =>
      rw [eventLoop, if_pos hi, hread]
      dsimp only
      rw [if_neg (not_not.2 hlen)]
      exact ih _

theorem length_lt_of_cons {es : List InotifyEvent}
    (htotal : totalRead = (front ++ (e :: es).flatMap InotifyEvent.bytes).length) :
    front.length < totalRead := by
  have hlen := e.length_bytes
  simp only [List.flatMap_cons, List.length_append, monitorSingleEventSize] at htotal hlen
  omega

theorem map_fst_visitsTo (k : Nat) : (visitsTo flag k events).map Prod.fst = events := by
  induction events generalizing k with
  | nil =>
      rfl
  | cons e es ih =>
      rw [visitsTo, List.map_cons, ih]

theorem visitsTo_const (f : Bool) (k : Nat) :
    visitsTo (fun _ => f) k events = events.map fun e => (e, if f then none else e.request) := by
  induction events generalizing k with
  | nil =>
      rfl
  | cons e es ih =>
      rw [visitsTo, ih, List.map_cons]

/-- Over events that all have names the loop comes to the end of the buffer. -/
theorem eventLoop_all_named (hnames : ∀ e ∈ events, e.len ≠ 0)
    (hbuffer : buffer = front ++ (events.flatMap InotifyEvent.bytes ++ behind))
    (htotal : totalRead = (front ++ events.flatMap InotifyEvent.bytes).length) :
    eventLoop flag buffer totalRead (events.length + 1) front.length visits =
      some (visits ++ visitsTo flag visits.length events) := by
  induction events generalizing front visits with
  | nil =>
      rw [eventLoop, if_neg (by simp [htotal]), visitsTo, List.append_nil]
  | cons e es ih =>
      have hround := @eventLoop_named flag buffer front (es.flatMap InotifyEvent.bytes ++ behind) e
        totalRead (es.length + 1) visits (by simpa using hbuffer) (length_lt_of_cons htotal)
        (hnames e List.mem_cons_self)
      -- the rest of the walk starts behind the record
      have hwalk : eventLoop flag buffer totalRead (es.length + 1) (front ++ e.bytes).length
          (visits ++ [(e, if flag visits.length then none else e.request)]) =
            some (visits ++ [(e, if flag visits.length then none else e.request)] ++ visitsTo flag
              (visits ++ [(e, if flag visits.length then none else e.request)]).length es) :=
        ih (fun e' he' => hnames e' (List.mem_cons_of_mem _ he')) (by simpa using hbuffer)
          (by simpa using htotal)
      rw [List.length_cons, hround, hwalk, visitsTo]
      simp

/-- Over events of which one has no name the loop never comes to an end. -/
theorem eventLoop_some_nameless (hnameless : ∃ e ∈ events, e.len = 0)
    (hbuffer : buffer = front ++ (events.flatMap InotifyEvent.bytes ++ behind))
    (htotal : totalRead = (front ++ events.flatMap InotifyEvent.bytes).length) (fuel : Nat) :
    eventLoop flag buffer totalRead fuel front.length visits = none := by
  induction events generalizing front visits fuel with
  | nil =>
      rcases hnameless with ⟨e, he, _⟩
      cases he
  | cons e es ih =>
      have hi := length_lt_of_cons htotal
      have hbuffer' : buffer = front ++ (e.bytes ++ (es.flatMap InotifyEvent.bytes ++ behind)) := by
        simpa using hbuffer
      by_cases hlen : e.len = 0
      · exact eventLoop_nameless (InotifyEvent.read_bytes hbuffer') hi hlen fuel visits
      · cases fuel with
        | zero =>
            rfl
        | succ fuel =>
            have hrest : ∃ e' ∈ es, e'.len = 0 := by
              rcases hnameless with ⟨e', he', hlen'⟩
              rcases List.mem_cons.1 he' with rfl | he'
              · exact absurd hlen' hlen
              · exact ⟨e', he', hlen'⟩
            rw [eventLoop_named hbuffer' hi hlen]
            exact ih hrest (by simpa using hbuffer) (by simpa using htotal) fuel

end Walking

/-- The event that the kernel puts into the queue when it overflows: it belongs to no watch and has
no name. -/
def overflowEvent : InotifyEvent where
  wd := -1
  mask := 0x4000
  cookie := 0
  len := 0
  name := ⟨[], rfl⟩

/-- A buffer with that event alone. -/
def overflowBatch : Batch where
  events := [overflowEvent]
  behind := List.replicate (bufferLength - 16) 0
  fits := by
    rw [List.length_replicate]
    rfl

/-- The bit of a mask. -/
def Mask.bit : Mask → UInt32
  | .delete => inDelete
  | .closeWrite => inCloseWrite
  | .movedFrom => inMovedFrom
  | .movedTo => inMovedTo

/-- The record is one for the event. -/
structure InotifyEvent.For (e : InotifyEvent) (event : Event) : Prop where
  mask : e.mask = event.mask.bit
  name : e.name.string = event.name
  named : e.len ≠ 0

theorem InotifyEvent.For.request {e : InotifyEvent} {event : Event} (h : e.For event) :
    e.request = event.request := by
  rcases event with ⟨mask, name, origin⟩
  simp only [InotifyEvent.request, Event.request, h.mask, h.name]
  -- each bit is met by its own test and by none of those before it
  cases mask <;> rfl

theorem named_of_for {es : List InotifyEvent} {events : List Event}
    (h : List.Forall₂ InotifyEvent.For es events) : ∀ e ∈ es, e.len ≠ 0 := by
  induction h with
  | nil =>
      simp
  | cons hfor _ ih =>
      exact List.forall_mem_cons.2 ⟨hfor.named, ih⟩

theorem requests_of_for {es : List InotifyEvent} {events : List Event}
    (h : List.Forall₂ InotifyEvent.For es events) :
    es.map InotifyEvent.request = events.map Event.request := by
  induction h with
  | nil =>
      rfl
  | cons hfor _ ih =>
      rw [List.map_cons, List.map_cons, hfor.request, ih]

/-- Over a buffer with the records of the next events the loop sends what a batch of the Box sends,
as long as the flag is not changed while it runs. -/
theorem eventLoop_take (s : State) (n : Nat) (b : Batch)
    (hfor : List.Forall₂ InotifyEvent.For b.events (s.queue.take n)) :
    ∃ fuel visits, eventLoop (fun _ => s.instructionSourceIsServer) b.buffer b.totalRead fuel 0 [] =
        some visits ∧
      (s.take n).log.map Prod.snd = s.log.map Prod.snd ++ visits.map Prod.snd := by
  have hbuffer : b.buffer = [] ++ (b.events.flatMap InotifyEvent.bytes ++ b.behind) := rfl
  have htotal : b.totalRead = ([] ++ b.events.flatMap InotifyEvent.bytes).length := rfl
  refine ⟨_, _, eventLoop_all_named (named_of_for hfor) hbuffer htotal, ?_⟩
  rw [List.nil_append, visitsTo_const, State.take, List.map_append]
  cases s.instructionSourceIsServer with
  | true =>
      -- nothing is sent for any of them
      have hlen := hfor.length_eq
      simp [Function.comp_def, hlen, -List.map_take]
  | false =>
      have hrequests := requests_of_for hfor
      simpa [Function.comp_def, -List.map_take] using hrequests.symm

end Box
end DropboxSimulator
