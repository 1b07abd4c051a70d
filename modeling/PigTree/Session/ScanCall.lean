import PigTree.Protocol.Commands
import PigTree.Session.Transport

/-!
# The client's scan call

The receive loop of a scan, from the moment its request is sent. Each pass polls the
cancel event, gives up two seconds after it asked for cancellation, and takes the next
frame once the pipe holds all of it.
-/

namespace PigTree

inductive ScanCallOutcome where
  | finished (response : ScanResponse)
  | cancelled (response : ScanResponse)
deriving DecidableEq, Repr

/-- The identifier of the scan that draws a sequence number of the session. -/
def scanOperationId (seq : UInt64) : String := "scan-" ++ toString seq

/-- The loop between two passes: the bytes in the pipe, what it remembers, and the
messages it has handed to the progress callback. -/
structure ScanCall where
  pipe : List UInt8
  lastProgressSeq : UInt64
  cancelSent : Bool
  progress : List ScanProgress
deriving DecidableEq, Repr

namespace ScanCall

/-- The number of the last message handed out, zero before the first. -/
def lastSequenceNumber (progress : List ScanProgress) : UInt64 :=
  progress.foldl (fun _ p => p.sequenceNumber) 0

def start : ScanCall where
  pipe := []
  lastProgressSeq := 0
  cancelSent := false
  progress := []

/-- What one pass meets: the cancel event, whether a request can be written, the clock
against the deadline, the bytes that have arrived, the code peeking fails with if it
fails, and whether the pipe can be read. -/
structure Tick where
  cancelFired : Bool := false
  writable : Bool := true
  deadlineReached : Bool := false
  arrived : List UInt8 := []
  peekError : Option UInt32 := none
  readable : Bool := true
deriving DecidableEq, Repr

/-- A cancel request is sent once, when the event fires. -/
def pollCancel (tick : Tick) (call : ScanCall) : Except IpcError ScanCall :=
  if call.cancelSent = false ∧ tick.cancelFired = true then
    if tick.writable then .ok { call with cancelSent := true } else .error .io
  else .ok call

variable (decode : List UInt8 → Option CommandResponse) (operationId : String)

/-- The effect of one frame. -/
def receive (call : ScanCall) (frame : Frame) :
    Except IpcError (ScanCall × Option ScanCallOutcome) :=
  match frame.header.channelTag with
  | .progressPulse =>
      match decode frame.payload with
      | none => .error .protobuf
      | some resp =>
          match resp.response with
          | some (.scanProgress p) =>
              if p.operationId ≠ operationId then .error (.protocol (.checksumMismatch 0 0))
              else if p.sequenceNumber ≤ call.lastProgressSeq then
                .error (.protocol (.checksumMismatch 0 0))
              else
                .ok ({ call with
                  lastProgressSeq := p.sequenceNumber
                  progress := call.progress ++ [p] }, none)
          | _ => .error (.protocol .prematureEof)
  | .command =>
      match decode frame.payload with
      | none => .error .protobuf
      | some resp =>
          if resp.requestId ≠ operationId ∧ resp.requestId ≠ "" then
            .error (.protocol .prematureEof)
          else if resp.status ≠ 0 then .error (.commandError resp.errorCode resp.errorMessage)
          else
            match resp.response with
            | some (.scanResponse sr) =>
                if sr.operationId ≠ operationId then .error (.protocol .prematureEof)
                else if call.cancelSent = true ∨ sr.runOutcome = ScanRunOutcome.cancelled.number then
                  .ok (call, some (.cancelled sr))
                else .ok (call, some (.finished sr))
            | some (.error err) => .error (.commandError err.code err.message)
            | _ => .error (.protocol .prematureEof)
  | other => .error (.protocol (.invalidChannelTag other.toU8))

/-- What peeking at the pipe answers. -/
def peeked (tick : Tick) (pipe : List UInt8) : Except UInt32 PipePeek :=
  match tick.peekError with
  | some code => .error code
  | none => .ok (PipePeek.of pipe)

/-- Take the next frame if the pipe holds all of it. -/
def readNext (tick : Tick) (call : ScanCall) :
    Except IpcError (ScanCall × Option ScanCallOutcome) :=
  let pipe := call.pipe ++ tick.arrived
  match peekFrameReadiness (peeked tick pipe) with
  | .error err => .error err
  | .ok .complete =>
      if tick.readable then
        match readFrame pipe with
        | .error err => .error (.protocol err)
        | .ok (none, _) => .error (.protocol .prematureEof)
        | .ok (some frame, rest) => receive decode operationId { call with pipe := rest } frame
      else .error .io
  | .ok _ => .ok ({ call with pipe }, none)

/-- One pass of the loop. -/
def turn (tick : Tick) (call : ScanCall) : Except IpcError (ScanCall × Option ScanCallOutcome) :=
  match pollCancel tick call with
  | .error err => .error err
  | .ok call =>
      if call.cancelSent = true ∧ tick.deadlineReached = true then .error .cancelled
      else readNext decode operationId tick call

/-- The call after some passes: still in its loop, or back with a result. -/
inductive Status where
  | waiting (call : ScanCall)
  | returned (progress : List ScanProgress) (result : Except IpcError ScanCallOutcome)
deriving DecidableEq

def run : ScanCall → List Tick → Status
  | call, [] => .waiting call
  | call, tick :: ticks =>
      match turn decode operationId tick call with
      | .error err => .returned call.progress (.error err)
      | .ok (next, some outcome) => .returned next.progress (.ok outcome)
      | .ok (next, none) => run next ticks

end ScanCall

/-- A scan of the session that has drawn `seq`, through the given passes. -/
def scanWithProgressOutcome (decode : List UInt8 → Option CommandResponse) (seq : UInt64)
    (ticks : List ScanCall.Tick) : ScanCall.Status :=
  ScanCall.run decode (scanOperationId seq) .start ticks

namespace ScanCallOutcome

def response : ScanCallOutcome → ScanResponse
  | .finished response => response
  | .cancelled response => response

end ScanCallOutcome

namespace ScanCall

variable {decode : List UInt8 → Option CommandResponse} {operationId : String} {tick : Tick}
  {call next : ScanCall}

/-! ### What a pass does -/

/-- The pass finds a cancel request out and its deadline reached. -/
def Expires (tick : Tick) (call : ScanCall) : Prop :=
  (call.cancelSent = true ∨ tick.cancelFired = true) ∧ tick.deadlineReached = true

/-- The call with a progress message more. -/
def advanced (call : ScanCall) (p : ScanProgress) : ScanCall :=
  { call with lastProgressSeq := p.sequenceNumber, progress := call.progress ++ [p] }

/-- The call after the cancel event was looked at. -/
def polled (call : ScanCall) (tick : Tick) : ScanCall :=
  { call with cancelSent := call.cancelSent || tick.cancelFired }

theorem expires_iff : Expires tick call ↔
    (call.polled tick).cancelSent = true ∧ tick.deadlineReached = true := by
  rw [Expires, polled, Bool.or_eq_true]

theorem pollCancel_cases (tick : Tick) (call : ScanCall) :
    pollCancel tick call = .error .io ∨ pollCancel tick call = .ok (call.polled tick) := by
  unfold pollCancel polled
  split
  · next fires =>
      split
      · right
        rw [fires.2, Bool.or_true]
      · left
        rfl
  · next idle =>
      right
      cases sent : call.cancelSent with
      | true => rw [Bool.true_or, ← sent]
      | false =>
          cases fired : tick.cancelFired with
          | true => exact absurd ⟨sent, fired⟩ idle
          | false => rw [Bool.or_self, ← sent]

/-- A frame fails the call, or brings a later progress message of the operation, or brings
its response. -/
theorem receive_cases (decode : List UInt8 → Option CommandResponse) (operationId : String)
    (call : ScanCall) (frame : Frame) :
    (∃ err, receive decode operationId call frame = .error err ∧ err ≠ .cancelled) ∨
    (∃ p : ScanProgress, p.operationId = operationId ∧ call.lastProgressSeq < p.sequenceNumber ∧
      receive decode operationId call frame = .ok (call.advanced p, none)) ∨
    ∃ outcome : ScanCallOutcome, outcome.response.operationId = operationId ∧
      receive decode operationId call frame = .ok (call, some outcome) := by
  unfold receive
  split
  · split
    · exact Or.inl ⟨_, rfl, nofun⟩
    split
    · next p _ =>
        split
        · exact Or.inl ⟨_, rfl, nofun⟩
        split
        · exact Or.inl ⟨_, rfl, nofun⟩
        · next same later =>
            right
            left
            exact ⟨p, not_not.mp same, UInt64.not_le.mp later, rfl⟩
    · exact Or.inl ⟨_, rfl, nofun⟩
  · split
    · exact Or.inl ⟨_, rfl, nofun⟩
    split
    · exact Or.inl ⟨_, rfl, nofun⟩
    split
    · exact Or.inl ⟨_, rfl, nofun⟩
    split
    · next sr _ =>
        split
        · exact Or.inl ⟨_, rfl, nofun⟩
        · next same =>
            right
            right
            split
            · exact ⟨.cancelled sr, not_not.mp same, rfl⟩
            · exact ⟨.finished sr, not_not.mp same, rfl⟩
    · exact Or.inl ⟨_, rfl, nofun⟩
    · exact Or.inl ⟨_, rfl, nofun⟩
  · exact Or.inl ⟨_, rfl, nofun⟩

theorem peekFrameReadiness_nil : peekFrameReadiness (.ok (PipePeek.of [])) = .ok .empty := by
  unfold peekFrameReadiness
  exact if_pos rfl

theorem peekFrameReadiness_peeked (tick : Tick) (pipe : List UInt8) :
    peekFrameReadiness (peeked tick pipe) ≠ .error .cancelled := by
  unfold peeked
  split
  · unfold peekFrameReadiness
    dsimp only
    split
    · nofun
    · nofun
  · by_cases empty : pipe = []
    · subst empty
      rw [peekFrameReadiness_nil]
      simp
    · rw [peekFrameReadiness_eq empty]
      cases decodeFrame pipe with
      | ok parsed => simp
      | error err => cases err <;> simp

/-- Reading fails the call, or leaves it waiting, or brings what a frame brings. -/
theorem readNext_cases (decode : List UInt8 → Option CommandResponse) (operationId : String)
    (tick : Tick) (call : ScanCall) :
    (∃ err, readNext decode operationId tick call = .error err ∧ err ≠ .cancelled) ∨
    (∃ pipe, readNext decode operationId tick call = .ok ({ call with pipe }, none)) ∨
    ∃ pipe frame, readNext decode operationId tick call =
      receive decode operationId { call with pipe } frame := by
  have notCancelled := peekFrameReadiness_peeked tick (call.pipe ++ tick.arrived)
  unfold readNext
  dsimp only
  split
  · next err failed =>
      left
      refine ⟨err, rfl, ?_⟩
      rintro rfl
      exact notCancelled failed
  · split
    · split
      · exact Or.inl ⟨_, rfl, nofun⟩
      · exact Or.inl ⟨_, rfl, nofun⟩
      · exact Or.inr (Or.inr ⟨_, _, rfl⟩)
    · exact Or.inl ⟨_, rfl, nofun⟩
  · exact Or.inr (Or.inl ⟨_, rfl⟩)

/-- Everything a pass can do. -/
theorem turn_cases (decode : List UInt8 → Option CommandResponse) (operationId : String)
    (tick : Tick) (call : ScanCall) :
    (∃ err, turn decode operationId tick call = .error err ∧ err ≠ .cancelled) ∨
    (Expires tick call ∧ turn decode operationId tick call = .error .cancelled) ∨
    (∃ pipe, turn decode operationId tick call = .ok ({ call.polled tick with pipe }, none)) ∨
    (∃ (pipe : List UInt8) (p : ScanProgress), p.operationId = operationId ∧
      call.lastProgressSeq < p.sequenceNumber ∧ turn decode operationId tick call =
        .ok ({ call.polled tick with pipe }.advanced p, none)) ∨
    ∃ (pipe : List UInt8) (outcome : ScanCallOutcome), ¬Expires tick call ∧
      outcome.response.operationId = operationId ∧ turn decode operationId tick call =
        .ok ({ call.polled tick with pipe }, some outcome) := by
  rcases pollCancel_cases tick call with polled | polled
  · rw [turn, polled]
    exact Or.inl ⟨_, rfl, nofun⟩
  by_cases expires : Expires tick call
  · right
    left
    refine ⟨expires, ?_⟩
    rw [turn, polled]
    exact if_pos (expires_iff.mp expires)
  have opened : turn decode operationId tick call =
      readNext decode operationId tick (call.polled tick) := by
    rw [turn, polled]
    exact if_neg (mt expires_iff.mpr expires)
  rw [opened]
  rcases readNext_cases decode operationId tick (call.polled tick) with
    failed | ⟨pipe, waits⟩ | ⟨pipe, frame, received⟩
  · exact Or.inl failed
  · exact Or.inr (Or.inr (Or.inl ⟨pipe, waits⟩))
  · rw [received]
    rcases receive_cases decode operationId { call.polled tick with pipe } frame with
      failed | ⟨p, same, later, advances⟩ | ⟨outcome, same, settles⟩
    · exact Or.inl failed
    · exact Or.inr (Or.inr (Or.inr (Or.inl ⟨pipe, p, same, later, advances⟩)))
    · exact Or.inr (Or.inr (Or.inr (Or.inr ⟨pipe, outcome, expires, same, settles⟩)))

/-! ### Runs of the loop -/

/-- What the loop keeps: its messages belong to the operation, and their numbers grow up to
the last one it remembers. -/
structure Ordered (operationId : String) (call : ScanCall) : Prop where
  sameOperation : ∀ p ∈ call.progress, p.operationId = operationId
  increasing : call.progress.Pairwise (fun p q => p.sequenceNumber < q.sequenceNumber)
  bounded : ∀ p ∈ call.progress, p.sequenceNumber ≤ call.lastProgressSeq
  last : lastSequenceNumber call.progress = call.lastProgressSeq

theorem ordered_start : Ordered operationId start where
  sameOperation := nofun
  increasing := .nil
  bounded := nofun
  last := rfl

theorem lastSequenceNumber_append (progress : List ScanProgress) (p : ScanProgress) :
    lastSequenceNumber (progress ++ [p]) = p.sequenceNumber := by
  rw [lastSequenceNumber, List.foldl_append]
  rfl

/-- Only the messages and the last number matter. -/
theorem Ordered.congr (ordered : Ordered operationId call) (progress : next.progress = call.progress)
    (last : next.lastProgressSeq = call.lastProgressSeq) : Ordered operationId next where
  sameOperation := progress ▸ ordered.sameOperation
  increasing := progress ▸ ordered.increasing
  bounded := by
    rw [progress, last]
    exact ordered.bounded
  last := by
    rw [progress, last]
    exact ordered.last

/-- A later message of the operation keeps the order. -/
theorem Ordered.advanced (ordered : Ordered operationId call) {p : ScanProgress}
    (same : p.operationId = operationId) (later : call.lastProgressSeq < p.sequenceNumber) :
    Ordered operationId (call.advanced p) := by
  have below : ∀ q ∈ call.progress, q.sequenceNumber < p.sequenceNumber :=
    fun q mem => UInt64.lt_of_le_of_lt (ordered.bounded q mem) later
  constructor
  · rw [ScanCall.advanced, List.forall_mem_append, List.forall_mem_singleton]
    exact ⟨ordered.sameOperation, same⟩
  · rw [ScanCall.advanced, List.pairwise_append]
    refine ⟨ordered.increasing, List.pairwise_singleton _ _, ?_⟩
    intro q mem r single
    rw [List.mem_singleton.mp single]
    exact below q mem
  · rw [ScanCall.advanced, List.forall_mem_append, List.forall_mem_singleton]
    exact ⟨fun q mem => UInt64.le_of_lt (below q mem), UInt64.le_refl _⟩
  · exact lastSequenceNumber_append call.progress p

/-- One pass keeps the order. -/
theorem Ordered.turn (ordered : Ordered operationId call)
    (waits : ScanCall.turn decode operationId tick call = .ok (next, none)) :
    Ordered operationId next := by
  rcases turn_cases decode operationId tick call with
    ⟨err, failed, _⟩ | ⟨_, expired⟩ | ⟨pipe, waited⟩ | ⟨pipe, p, same, later, waited⟩ |
      ⟨pipe, outcome, _, _, settled⟩
  · rw [failed] at waits
    cases waits
  · rw [expired] at waits
    cases waits
  · rw [waited] at waits
    cases waits
    exact ordered.congr rfl rfl
  · rw [waited] at waits
    cases waits
    have polled : Ordered operationId { call.polled tick with pipe } := ordered.congr rfl rfl
    exact polled.advanced same later
  · rw [settled] at waits
    cases waits

/-- So does a run. -/
theorem Ordered.run (ordered : Ordered operationId call) {ticks : List Tick}
    (waits : ScanCall.run decode operationId call ticks = .waiting next) :
    Ordered operationId next := by
  induction ticks generalizing call with
  | nil =>
      cases waits
      exact ordered
  | cons tick ticks ih =>
      rw [ScanCall.run] at waits
      split at waits
      · cases waits
      · cases waits
      · next turned => exact ih (ordered.turn turned) waits

/-- A pass more. -/
theorem run_append {ticks : List Tick} (waits : run decode operationId call ticks = .waiting next) :
    run decode operationId call (ticks ++ [tick]) = run decode operationId next [tick] := by
  induction ticks generalizing call with
  | nil =>
      cases waits
      rfl
  | cons first ticks ih =>
      rw [run] at waits
      rw [List.cons_append, run]
      split at waits
      · cases waits
      · cases waits
      · next turned => exact ih waits

/-- The ways a pass returns: giving up, with a response of the operation, or with an error
that is not a cancellation. -/
theorem returned_cases {progress : List ScanProgress} {result : Except IpcError ScanCallOutcome}
    (returned : run decode operationId call [tick] = .returned progress result) :
    (Expires tick call ∧ progress = call.progress ∧ result = .error .cancelled) ∨
    (∃ outcome : ScanCallOutcome, ¬Expires tick call ∧
      outcome.response.operationId = operationId ∧ progress = call.progress ∧
        result = .ok outcome) ∨
    ∃ err, result = .error err ∧ err ≠ .cancelled := by
  rw [run] at returned
  rcases turn_cases decode operationId tick call with
    ⟨err, failed, other⟩ | ⟨expires, expired⟩ | ⟨pipe, waited⟩ | ⟨pipe, p, _, _, waited⟩ |
      ⟨pipe, outcome, pending, same, settled⟩
  · rw [failed] at returned
    cases returned
    exact Or.inr (Or.inr ⟨err, rfl, other⟩)
  · rw [expired] at returned
    cases returned
    exact Or.inl ⟨expires, rfl, rfl⟩
  · rw [waited] at returned
    cases returned
  · rw [waited] at returned
    cases returned
  · rw [settled] at returned
    cases returned
    exact Or.inr (Or.inl ⟨outcome, pending, same, rfl, rfl⟩)

/-! ### Runs without cancellation -/

/-- A pass that does not see the cancel event sends no request. -/
theorem turn_cancelSent (idle : tick.cancelFired = false)
    (waits : turn decode operationId tick call = .ok (next, none)) :
    next.cancelSent = call.cancelSent := by
  have kept : (call.polled tick).cancelSent = call.cancelSent := by
    rw [polled, idle, Bool.or_false]
  rcases turn_cases decode operationId tick call with
    ⟨err, failed, _⟩ | ⟨_, expired⟩ | ⟨pipe, waited⟩ | ⟨pipe, p, _, _, waited⟩ |
      ⟨pipe, outcome, _, _, settled⟩
  · rw [failed] at waits
    cases waits
  · rw [expired] at waits
    cases waits
  · rw [waited] at waits
    cases waits
    exact kept
  · rw [waited] at waits
    cases waits
    exact kept
  · rw [settled] at waits
    cases waits

theorem run_cancelSent {ticks : List Tick} (idle : ∀ tick ∈ ticks, tick.cancelFired = false)
    (waits : run decode operationId call ticks = .waiting next) :
    next.cancelSent = call.cancelSent := by
  induction ticks generalizing call with
  | nil =>
      cases waits
      rfl
  | cons tick ticks ih =>
      rw [List.forall_mem_cons] at idle
      rw [run] at waits
      split at waits
      · cases waits
      · cases waits
      · next turned =>
          rw [ih idle.2 waits]
          exact turn_cancelSent idle.1 turned

/-! ### Frames that arrive whole -/

/-- A frame at the front of the pipe is taken from it. -/
theorem readNext_frame {frame : Frame} {rest : List UInt8}
    (small : frame.payload.length ≤ maxPayloadSize) (peeks : tick.peekError = none)
    (readable : tick.readable = true) (holds : call.pipe ++ tick.arrived = frameBytes frame ++ rest) :
    readNext decode operationId tick call =
      receive decode operationId { call with pipe := rest } frame := by
  have encodes := encodesItem_readFrame small
  have nonempty : frameBytes frame ++ rest ≠ [] :=
    List.append_ne_nil_of_left_ne_nil encodes.nonempty _
  have complete : peekFrameReadiness (peeked tick (frameBytes frame ++ rest)) = .ok .complete := by
    rw [peeked, peeks]
    dsimp only
    rw [peekFrameReadiness_eq nonempty, decodeFrame_frameBytes small]
  unfold readNext
  dsimp only
  rw [holds, complete, encodes.complete rest]
  exact if_pos readable

/-- A pass without cancellation goes on to the pipe. -/
theorem turn_open (idle : tick.cancelFired = false) (unsent : call.cancelSent = false) :
    turn decode operationId tick call = readNext decode operationId tick call := by
  have polled : pollCancel tick call = .ok call := if_neg (by simp [idle])
  rw [turn, polled]
  exact if_neg (by simp [unsent])

/-- A run that ends when an answer is read from the pipe, and never sees the cancel event. -/
structure Answered (decode : List UInt8 → Option CommandResponse) (seq : UInt64)
    (answer : CommandResponse) where
  earlier : List Tick
  last : Tick
  call : ScanCall
  frame : Frame
  rest : List UInt8
  waiting : scanWithProgressOutcome decode seq earlier = .waiting call
  uncancelled : ∀ tick ∈ earlier ++ [last], tick.cancelFired = false
  holds : call.pipe ++ last.arrived = frameBytes frame ++ rest
  peeks : last.peekError = none
  readable : last.readable = true
  channel : frame.header.channelTag = .command
  fits : frame.payload.length ≤ maxPayloadSize
  decoded : decode frame.payload = some answer

/-- What the call makes of a response without cancellation. -/
def outcomeOf (response : ScanResponse) : ScanCallOutcome :=
  if response.runOutcome = ScanRunOutcome.cancelled.number then .cancelled response
  else .finished response

theorem Answered.returned {seq : UInt64} {answer : CommandResponse} {response : ScanResponse}
    (run : Answered decode seq answer) (request : answer.requestId = scanOperationId seq)
    (succeeds : answer.status = 0) (settles : answer.response = some (.scanResponse response))
    (operation : response.operationId = scanOperationId seq) :
    scanWithProgressOutcome decode seq (run.earlier ++ [run.last]) =
      .returned run.call.progress (.ok (outcomeOf response)) := by
  rcases List.forall_mem_append.mp run.uncancelled with ⟨before, last⟩
  have unsent : run.call.cancelSent = false := run_cancelSent before run.waiting
  have taken : turn decode (scanOperationId seq) run.last run.call =
      .ok ({ run.call with pipe := run.rest }, some (outcomeOf response)) := by
    rw [turn_open (last _ List.mem_cons_self) unsent,
      readNext_frame run.fits run.peeks run.readable run.holds, receive, run.channel]
    dsimp only
    rw [run.decoded]
    dsimp only
    rw [if_neg (fun other => other.1 request), succeeds, if_neg (by decide), settles]
    dsimp only
    rw [if_neg (not_not.mpr operation), unsent, outcomeOf]
    split
    · next cancelled => rw [if_pos (cancelled.resolve_left (by decide))]
    · next finished => rw [if_neg (fun cancelled => finished (Or.inr cancelled))]
  rw [scanWithProgressOutcome, run_append run.waiting, ScanCall.run, taken]

end ScanCall

end PigTree
