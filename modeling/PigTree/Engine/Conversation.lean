import PigTree.Engine.CommandLoop
import PigTree.Foundation.Ledger

/-!
# What the engine answers

Over a whole run, the replies the engine writes and the commands it has read form a
ledger: every reply answers a command of its own, under its name and with a payload of its
kind. While the session works and no command is delayed, only cancellations go unanswered.
-/

namespace PigTree

open Foundation

/-- The payloads that fit a request. -/
inductive EngineReply.Fits : Option EngineRequest → Option EngineReply.Payload → Prop
  | ping (request : PingRequest) (nowMs : UInt64) :
      Fits (some (.ping request)) (some (.ping ⟨request.timestampUtcMs, nowMs⟩))
  | echo (request : EchoRequest) : Fits (some (.echo request)) (some (.echo request.payload))
  | health (request : HealthRequest) (health : HealthResponse) :
      Fits (some (.health request)) (some (.health health))
  | status (delayMs : UInt32) (status : StatusResponse) :
      Fits (some (.status delayMs)) (some (.command (.statusPayload status)))
  | version (delayMs : UInt32) (version : VersionResponse) :
      Fits (some (.version delayMs)) (some (.version version))
  | shutdown : Fits (some .shutdown) (some (.shutdown 0))
  | cancel (request : CancelRequest) (message : String) :
      Fits (some (.cancel request)) (some (.command (.cancel { cancelled := true, message })))
  | scan (request : ScanRequest) (response : ScanResponse)
      (same : response.targetPath = request.targetPath) :
      Fits (some (.scan request)) (some (.command (.scanResponse response)))
  | getChildren (request : GetChildrenRequest) (page : GetChildrenResponse)
      (sameOperation : page.operationId = request.operationId)
      (sameParent : page.parentId = request.parentId) (sameOffset : page.offset = request.offset) :
      Fits (some (.getChildren request)) (some (.command (.getChildren page)))
  | failure (request : Option EngineRequest) (err : ErrorResponse) :
      Fits request (some (.command (.error err)))
  | unknown : Fits none none
  | authHandshake : Fits (some .authHandshake) none

/-- The reply answers the command. Only the reply to a cancellation without a name may be
named by the target instead. -/
structure EngineReply.Answers (cmd : EngineCommand) (reply : EngineReply) : Prop where
  named : reply.requestId = cmd.requestId ∨ cmd.requestId = "" ∧
    ∃ cancel, cmd.request = some (.cancel cancel) ∧ reply.requestId = cancel.targetRequestId
  fits : EngineReply.Fits cmd.request reply.payload

/-- The reply neither settles a scan nor shows children. -/
def EngineReply.IsPlain (reply : EngineReply) : Prop :=
  (∀ response, reply.payload ≠ some (.command (.scanResponse response))) ∧
    ∀ page, reply.payload ≠ some (.command (.getChildren page))

theorem EngineReply.isPlain_failure (requestId code message : String) :
    (EngineReply.failure requestId code message).IsPlain := by
  constructor <;> rintro _ ⟨⟩

namespace Engine

open EngineReply

variable {Dropped : EngineCommand → Prop} {info : EngineInfo} {tick : Tick} {cmd : EngineCommand}
  {engine next : Engine} {task : ScanTask} {runner : Runner} {loop : ScanLoop}

/-- The replies among what was written. -/
def replies (outputs : List EngineOutput) : List EngineReply :=
  outputs.filterMap EngineOutput.reply?

@[simp]
theorem replies_append (left right : List EngineOutput) :
    replies (left ++ right) = replies left ++ replies right := List.filterMap_append

@[simp]
theorem replies_reply (reply : EngineReply) : replies [.reply reply] = [reply] := rfl

/-- The scan command behind a task. -/
def Requests (task : ScanTask) (cmd : EngineCommand) : Prop :=
  cmd.requestId = task.requestId ∧
    ∃ request, cmd.request = some (.scan request) ∧ task.info.targetPath = request.targetPath

/-- The commands that may still be answered. -/
def Waits : Mode → List EngineCommand → Prop
  | .idle, waiting => waiting = []
  | .delaying cmd, waiting => waiting = [cmd]
  | .scanning task _ _, waiting => ∃ cmd, waiting = [cmd] ∧ Requests task cmd
  | .left, waiting => waiting = []

/-- The commands read and the replies written form a ledger. -/
def Accounted (Dropped : EngineCommand → Prop) (engine : Engine) : Prop :=
  ∃ waiting, Waits engine.mode waiting ∧
    Ledger Answers Dropped engine.read waiting (replies engine.written)

theorem accounted_start : Accounted Dropped start := ⟨[], rfl, .empty⟩

/-- An engine that leaves answers no more. -/
theorem Accounted.leave (accounted : Accounted Dropped engine)
    (outside : engine.written = engine.sent) (lost : engine.mode ≠ .idle → ∀ cmd, Dropped cmd) :
    Accounted Dropped engine.leave := by
  rcases accounted with ⟨waiting, waits, ledger⟩
  rw [outside] at ledger
  refine ⟨[], rfl, ?_⟩
  change Ledger Answers Dropped engine.read [] (replies engine.sent)
  cases mode : engine.mode with
  | idle =>
      rw [mode] at waits
      cases waits
      exact ledger
  | delaying cmd =>
      rw [mode] at waits
      cases waits
      exact ledger.drop (lost (by simp [mode]) cmd)
  | scanning task runner loop =>
      rw [mode] at waits
      rcases waits with ⟨cmd, rfl, -⟩
      exact ledger.drop (lost (by simp [mode]) cmd)
  | left =>
      rw [mode] at waits
      cases waits
      exact ledger

@[simp]
theorem written_send (tick : Tick) (reply : EngineReply) (engine : Engine) :
    (engine.send tick reply).written = (engine.send tick reply).sent := by
  unfold Engine.send
  split <;> rfl

/-! ### What a pass does -/

theorem answers_getChildren {settledScan : Option SettledScan} {page : GetChildrenRequest}
    {reply : EngineReply} (requested : cmd.request = some (.getChildren page))
    (ran : getChildren settledScan cmd.requestId page = .ok reply) : Answers cmd reply := by
  have failure : ∀ code message, Answers cmd (.failure cmd.requestId code message) :=
    fun code message => ⟨Or.inl rfl, .failure _ _⟩
  unfold getChildren at ran
  split at ran
  · cases ran
    exact failure _ _
  · split at ran
    · cases ran
      exact failure _ _
    split at ran
    · cases ran
      exact failure _ _
    · rcases Checked.bind_eq_ok.mp ran with ⟨answer, -, built⟩
      cases answer with
      | error err =>
          cases built
          exact failure _ _
      | ok paged =>
          cases built
          refine ⟨Or.inl rfl, ?_⟩
          rw [requested]
          exact .getChildren page _ rfl rfl rfl

/-- What serving a command does: it is answered, or its scan begins. -/
inductive Dispatched (info : EngineInfo) (tick : Tick) (cmd : EngineCommand) (engine : Engine) :
    Engine → Prop
  | plain (reply : EngineReply) (answers : Answers cmd reply) (plain : reply.IsPlain) :
      Dispatched info tick cmd engine (engine.send tick reply)
  | shutdown (requested : cmd.request = some .shutdown) :
      Dispatched info tick cmd engine (engine.send tick (.ok cmd.requestId (.shutdown 0))).leave
  | page (page : GetChildrenRequest) (reply : EngineReply)
      (requested : cmd.request = some (.getChildren page))
      (served : getChildren engine.settledScan cmd.requestId page = .ok reply) :
      Dispatched info tick cmd engine (engine.send tick reply)
  | refused (reply : EngineReply) (answers : Answers cmd reply) (plain : reply.IsPlain) :
      Dispatched info tick cmd engine ({ engine with settledScan := none }.send tick reply)
  | begun (request : ScanRequest) (requested : cmd.request = some (.scan request)) :
      Dispatched info tick cmd engine
        (startRunner info tick.launch cmd.requestId request { engine with settledScan := none })

theorem dispatched_beginScan {request : ScanRequest}
    (requested : cmd.request = some (.scan request)) :
    Dispatched info tick cmd engine (Engine.beginScan info tick cmd.requestId request engine) := by
  have refused : ∀ code message, Dispatched info tick cmd engine
      ({ engine with settledScan := none }.send tick (.failure cmd.requestId code message)) :=
    fun code message => .refused _ ⟨Or.inl rfl, .failure _ _⟩ (isPlain_failure _ _ _)
  simp only [Engine.beginScan]
  split
  · exact refused _ _
  · split
    · exact refused _ _
    · split
      · exact refused _ _
      · exact .begun request requested

theorem dispatched (ran : Engine.dispatch info tick cmd engine = .ok next) :
    Dispatched info tick cmd engine next := by
  have plain : ∀ {payload : Payload}, Fits cmd.request (some payload) →
      (EngineReply.ok cmd.requestId payload).IsPlain →
        Dispatched info tick cmd engine (engine.send tick (.ok cmd.requestId payload)) :=
    fun fits plain => .plain _ ⟨Or.inl rfl, fits⟩ plain
  have unknown : Fits cmd.request none →
      Dispatched info tick cmd engine (engine.send tick (unknownCommand cmd.requestId)) :=
    fun fits => .plain _ ⟨Or.inl rfl, fits⟩ (by constructor <;> rintro _ ⟨⟩)
  cases requested : cmd.request with
  | none =>
      simp only [Engine.dispatch, requested, Except.ok.injEq] at ran
      exact ran ▸ unknown (requested ▸ .unknown)
  | some request =>
      rw [requested] at plain
      cases request with
      | authHandshake =>
          simp only [Engine.dispatch, requested, Except.ok.injEq] at ran
          exact ran ▸ unknown (requested ▸ .authHandshake)
      | ping request =>
          simp only [Engine.dispatch, requested, Except.ok.injEq] at ran
          exact ran ▸ plain (.ping request tick.nowMs) (by constructor <;> rintro _ ⟨⟩)
      | echo request =>
          simp only [Engine.dispatch, requested, Except.ok.injEq] at ran
          exact ran ▸ plain (.echo request) (by constructor <;> rintro _ ⟨⟩)
      | health request =>
          simp only [Engine.dispatch, requested, Except.ok.injEq] at ran
          exact ran ▸ plain (.health request _) (by constructor <;> rintro _ ⟨⟩)
      | status delayMs =>
          simp only [Engine.dispatch, requested, Except.ok.injEq] at ran
          exact ran ▸ plain (.status delayMs _) (by constructor <;> rintro _ ⟨⟩)
      | version delayMs =>
          simp only [Engine.dispatch, requested, Except.ok.injEq] at ran
          exact ran ▸ plain (.version delayMs _) (by constructor <;> rintro _ ⟨⟩)
      | cancel request =>
          simp only [Engine.dispatch, requested, Except.ok.injEq] at ran
          exact ran ▸ plain (.cancel request _) (by constructor <;> rintro _ ⟨⟩)
      | shutdown =>
          simp only [Engine.dispatch, requested, Except.ok.injEq] at ran
          exact ran ▸ .shutdown requested
      | scan request =>
          simp only [Engine.dispatch, requested, Except.ok.injEq] at ran
          exact ran ▸ dispatched_beginScan requested
      | getChildren page =>
          simp only [Engine.dispatch, requested] at ran
          rcases Checked.bind_eq_ok.mp ran with ⟨reply, built, sent⟩
          cases sent
          exact .page page reply requested built

def IsCancel (cmd : EngineCommand) : Prop := ∃ cancel, cmd.request = some (.cancel cancel)

/-- The replies a scan loop has written. -/
def loopReplies (loop : ScanLoop) : List EngineReply := replies (loop.sent.map .ofMessage)

theorem loopReplies_write_progress (written : Bool) (p : ScanProgress) (loop : ScanLoop) :
    loopReplies (loop.write written (.progress p)) = loopReplies loop := by
  unfold ScanLoop.write
  split
  · simp [loopReplies, replies, EngineOutput.ofMessage, EngineOutput.reply?]
  · rfl

theorem loopReplies_write_response (written : Bool) (resp : CommandResponse) (loop : ScanLoop) :
    loopReplies (loop.write written (.response resp)) =
      loopReplies loop ++ if written then [.ofCommand resp] else [] := by
  cases written with
  | true => simp [ScanLoop.write, loopReplies, replies, EngineOutput.ofMessage, EngineOutput.reply?]
  | false => simp [ScanLoop.write]

theorem loopReplies_sendPending {during : ScanLoop.Tick} {after : ScanLoop}
    (sends : ScanLoop.sendPending during loop = some after) :
    loopReplies after = loopReplies loop := by
  unfold ScanLoop.sendPending at sends
  split at sends
  · cases sends
    rfl
  · next p pending =>
      split at sends
      · split at sends
        · cases sends
          simp [loopReplies, replies, EngineOutput.ofMessage, EngineOutput.reply?]
        · cases sends
      · cases sends
        rfl

/-- The loop of a scan has read what the pass found. A command is answered, unless it is a
cancellation or the reply cannot be written. -/
inductive Heard (tick : Tick) (loop after : ScanLoop) : Prop
  | nothing (silent : tick.command? = none) (same : loopReplies after = loopReplies loop)
  | unanswered (cmd : EngineCommand) (read : tick.command? = some cmd)
      (reason : IsCancel cmd ∨ tick.replyWritten = false)
      (same : loopReplies after = loopReplies loop)
  | answered (cmd : EngineCommand) (reply : EngineReply) (read : tick.command? = some cmd)
      (answers : Answers cmd reply) (plain : reply.IsPlain)
      (added : loopReplies after = loopReplies loop ++ [reply])

theorem heard_write {resp : CommandResponse} (read : tick.command? = some cmd)
    (answers : Answers cmd (.ofCommand resp)) (plain : (EngineReply.ofCommand resp).IsPlain) :
    Heard tick loop (loop.write tick.replyWritten (.response resp)) := by
  have replied := loopReplies_write_response tick.replyWritten resp loop
  cases written : tick.replyWritten with
  | true =>
      rw [written] at replied
      exact .answered cmd _ read answers plain (by simpa using replied)
  | false =>
      rw [written] at replied
      exact .unanswered cmd read (Or.inr written) (by simpa using replied)

theorem heard_handle (task : ScanTask) (loop : ScanLoop) (read : tick.command? = some cmd) :
    Heard tick loop (ScanLoop.handle task tick.duringScan loop cmd.duringScan) := by
  unfold ScanLoop.handle
  split
  · next cancel requested =>
      refine .unanswered cmd read (Or.inl ?_) (by split <;> rfl)
      cases requestEq : cmd.request with
      | none => simp [EngineCommand.duringScan, requestEq] at requested
      | some request =>
          cases request with
          | cancel given => exact ⟨given, requestEq⟩
          | _ => simp [EngineCommand.duringScan, requestEq, EngineRequest.duringScan] at requested
  · next requested =>
      refine heard_write read ⟨Or.inl rfl, ?_⟩ (by constructor <;> rintro _ ⟨⟩)
      cases requestEq : cmd.request with
      | none => simp [EngineCommand.duringScan, requestEq] at requested
      | some request =>
          cases request with
          | status delayMs => exact .status delayMs _
          | _ => simp [EngineCommand.duringScan, requestEq, EngineRequest.duringScan] at requested
  · exact heard_write read ⟨Or.inl rfl, .failure _ _⟩ (by constructor <;> rintro _ ⟨⟩)

/-- What one look at the session does. -/
theorem inbound_cases {after : ScanLoop}
    (goes : ScanLoop.inbound task tick.duringScan loop = some after) :
    (tick.command? = none ∧ after = loop) ∨
      ∃ cmd, tick.command? = some cmd ∧
        after = ScanLoop.handle task tick.duringScan loop cmd.duringScan := by
  unfold ScanLoop.inbound at goes
  split at goes
  · cases goes
  · next empty =>
      cases goes
      have quiet : tick.readiness = .ok .empty := empty
      simp [Tick.command?, quiet]
  · next incomplete =>
      split at goes
      · cases goes
      · cases goes
        have partly : tick.readiness = .ok .incomplete := incomplete
        simp [Tick.command?, partly]
  · next complete =>
      have whole : tick.readiness = .ok .complete := complete
      unfold Tick.command?
      rw [whole]
      cases received : tick.received with
      | error err => simp [Tick.duringScan, received, Except.map] at goes
      | ok arrived =>
          cases arrived with
          | none => simp [Tick.duringScan, received, Except.map] at goes
          | some cmd =>
              right
              refine ⟨cmd, rfl, ?_⟩
              simpa [Tick.duringScan, received, Except.map] using goes.symm

theorem heard_inbound {after : ScanLoop}
    (goes : ScanLoop.inbound task tick.duringScan loop = some after) : Heard tick loop after := by
  rcases inbound_cases goes with ⟨silent, rfl⟩ | ⟨cmd, read, rfl⟩
  · exact .nothing silent rfl
  · exact heard_handle task loop read

/-- One pass of the loop of a scan. -/
theorem pass_cases {after : ScanLoop} {goes : Bool}
    (passed : ScanLoop.pass task tick.duringScan loop = (after, goes)) :
    (goes = false ∧ loopReplies after = loopReplies loop) ∨
      (goes = true ∧ Heard tick loop after) := by
  unfold ScanLoop.pass at passed
  dsimp only at passed
  split at passed
  · cases passed
    exact Or.inl ⟨rfl, rfl⟩
  · next pending sends =>
      have forwarded : loopReplies pending = loopReplies loop := by
        rw [loopReplies_sendPending sends]
        rfl
      split at passed
      · cases passed
        exact Or.inl ⟨rfl, forwarded⟩
      · next heard =>
          cases passed
          refine Or.inr ⟨rfl, ?_⟩
          cases heard_inbound heard with
          | nothing silent same => exact .nothing silent (same.trans forwarded)
          | unanswered cmd read reason same =>
              exact .unanswered cmd read reason (same.trans forwarded)
          | answered cmd reply read answers plain added =>
              exact .answered cmd reply read answers plain (forwarded ▸ added)

theorem settle_replies {finale : ScanLoop.Finale} {after : ScanLoop}
    (settled : ScanLoop.settle task runner finale loop = .ok after) :
    ∃ response, ScanLoop.scanResponse task runner (ScanLoop.finalDrain finale loop) = .ok response ∧
      loopReplies after = loopReplies loop ++
        if finale.responseWritten then [.ofCommand (Response.answer task.requestId response)]
        else [] := by
  have drained : loopReplies (ScanLoop.finalDrain finale loop) = loopReplies loop := by
    unfold ScanLoop.finalDrain
    split
    · rfl
    · exact loopReplies_write_progress _ _ _
  rcases Checked.bind_eq_ok.mp settled with ⟨response, built, written⟩
  cases written
  exact ⟨response, built, by rw [loopReplies_write_response, drained]⟩

theorem scanResponse_targetPath {response : ScanResponse}
    (built : ScanLoop.scanResponse task runner loop = .ok response) :
    response.targetPath = task.info.targetPath := by
  unfold ScanLoop.scanResponse at built
  split at built
  · cases built
    rfl
  · next result joined =>
      cases result with
      | error err =>
          cases built
          rfl
      | ok graph =>
          rcases Checked.bind_eq_ok.mp built with ⟨hardLinks, -, assembled⟩
          cases assembled
          rfl

/-- What one pass of a scan does to the engine. -/
inductive Scanned (tick : Tick) (task : ScanTask) (runner : Runner) (loop : ScanLoop)
    (engine : Engine) : Engine → Prop
  | leaves (after : ScanLoop) (same : loopReplies after = loopReplies loop)
      (broken : ¬tick.duringScan.Orderly) :
      Scanned tick task runner loop engine
        { engine with mode := .left, sent := engine.sent ++ after.sent.map .ofMessage }
  | goesOn (after : ScanLoop) (heard : Heard tick loop after) :
      Scanned tick task runner loop engine {
        engine with
        mode := .scanning task runner after
        read := engine.read ++ tick.command?.toList }
  | settles (after drained final : ScanLoop) (response : ScanResponse)
      (heard : Heard tick loop after)
      (built : ScanLoop.scanResponse task runner drained = .ok response)
      (added : loopReplies final = loopReplies after ++
        if tick.finale.responseWritten then [.ofCommand (Response.answer task.requestId response)]
        else []) :
      Scanned tick task runner loop engine {
        mode := if tick.finale.responseWritten then .idle else .left
        settledScan := settledBy task runner
        read := engine.read ++ tick.command?.toList
        sent := engine.sent ++ final.sent.map .ofMessage }

theorem scanned (ran : Engine.scan tick task runner loop engine = .ok next) :
    Scanned tick task runner loop engine next := by
  unfold Engine.scan at ran
  split at ran
  · next after passed =>
      cases ran
      rcases pass_cases passed with ⟨-, same⟩ | ⟨goes, -⟩
      · refine .leaves after same ?_
        intro orderly
        rcases ScanLoop.pass_orderly orderly task loop with ⟨other, goes⟩
        rw [passed] at goes
        cases goes
      · cases goes
  · next after passed =>
      rcases pass_cases passed with ⟨goes, -⟩ | ⟨-, heard⟩
      · cases goes
      · dsimp only at ran
        split at ran
        · rcases Checked.bind_eq_ok.mp ran with ⟨final, settled, assembled⟩
          cases assembled
          rcases settle_replies settled with ⟨response, built, added⟩
          exact .settles after _ final response heard built added
        · cases ran
          exact .goesOn after heard

/-! ### What stays -/

theorem sent_write (written : Bool) (message : EngineMessage) (loop : ScanLoop) :
    loop.sent <+: (loop.write written message).sent := by
  unfold ScanLoop.write
  split
  · exact List.prefix_append _ _
  · exact List.prefix_rfl

theorem sent_pass {during : ScanLoop.Tick} {after : ScanLoop} {goes : Bool}
    (passed : ScanLoop.pass task during loop = (after, goes)) : loop.sent <+: after.sent := by
  unfold ScanLoop.pass at passed
  dsimp only at passed
  split at passed
  · cases passed
    exact List.prefix_rfl
  · next pending sends =>
      have forwarded : loop.sent <+: pending.sent := by
        unfold ScanLoop.sendPending at sends
        split at sends
        · cases sends
          exact List.prefix_rfl
        · split at sends
          · split at sends
            · cases sends
              exact List.prefix_append _ _
            · cases sends
          · cases sends
            exact List.prefix_rfl
      split at passed
      · cases passed
        exact forwarded
      · next heard =>
          cases passed
          unfold ScanLoop.inbound at heard
          split at heard
          · cases heard
          · cases heard
            exact forwarded
          · split at heard
            · cases heard
            · cases heard
              exact forwarded
          · split at heard
            · cases heard
              unfold ScanLoop.handle
              split
              · split <;> exact forwarded
              · exact forwarded.trans (sent_write _ _ _)
              · exact forwarded.trans (sent_write _ _ _)
            · cases heard

theorem sent_settle {finale : ScanLoop.Finale} {after : ScanLoop}
    (settled : ScanLoop.settle task runner finale loop = .ok after) : loop.sent <+: after.sent := by
  have drained : loop.sent <+: (ScanLoop.finalDrain finale loop).sent := by
    unfold ScanLoop.finalDrain
    split
    · exact List.prefix_rfl
    · exact sent_write _ _ { loop with pendingProgress := none, upcoming := [] }
  rcases Checked.bind_eq_ok.mp settled with ⟨response, _, written⟩
  cases written
  exact drained.trans (sent_write _ _ _)

theorem sent_send (tick : Tick) (reply : EngineReply) (engine : Engine) :
    engine.sent <+: (engine.send tick reply).sent := by
  unfold Engine.send
  split
  · exact List.prefix_append _ _
  · exact List.prefix_rfl

@[simp]
theorem read_send (tick : Tick) (reply : EngineReply) (engine : Engine) :
    (engine.send tick reply).read = engine.read := by
  unfold Engine.send
  split <;> rfl

theorem Dispatched.extends (dispatched : Dispatched info tick cmd engine next) :
    engine.sent <+: next.written ∧ next.read = engine.read := by
  cases dispatched with
  | plain reply answers plain =>
      rw [written_send]
      exact ⟨sent_send _ _ _, read_send _ _ _⟩
  | shutdown requested => exact ⟨sent_send tick _ engine, read_send tick _ engine⟩
  | page page reply requested served =>
      rw [written_send]
      exact ⟨sent_send _ _ _, read_send _ _ _⟩
  | refused reply answers plain =>
      rw [written_send]
      exact ⟨sent_send tick reply { engine with settledScan := none }, read_send _ _ _⟩
  | begun request requested =>
      refine ⟨?_, rfl⟩
      simp [Engine.written, startRunner, ScanLoop.start]

/-- A pass takes back nothing that was written, and reads at most the next command. -/
theorem step_extends (ran : Engine.step info engine tick = .ok next) :
    engine.written <+: next.written ∧
      (next.read = engine.read ∨ next.read = engine.read ++ tick.command?.toList) := by
  have left : ∀ engine : Engine, engine.written = engine.sent →
      engine.written <+: (if tick.isQuiet then engine else engine.leave).written ∧
        (if tick.isQuiet then engine else engine.leave).read = engine.read := by
    intro engine outside
    split
    · exact ⟨List.prefix_rfl, rfl⟩
    · rw [outside]
      exact ⟨List.prefix_rfl, rfl⟩
  unfold Engine.step at ran
  cases mode : engine.mode with
  | idle =>
      have outside : engine.written = engine.sent := by simp only [Engine.written, mode]
      rw [mode] at ran
      dsimp only at ran
      unfold Engine.serve at ran
      split at ran
      · next cmd read =>
          dsimp only at ran
          rw [outside, read]
          split at ran
          · cases ran
            exact ⟨List.prefix_rfl, .inr rfl⟩
          · have extended := (Engine.dispatched ran).extends
            exact ⟨extended.1, .inr extended.2⟩
      · cases ran
        have stays := left engine outside
        exact ⟨stays.1, .inl stays.2⟩
  | delaying waiting =>
      have outside : engine.written = engine.sent := by simp only [Engine.written, mode]
      rw [mode] at ran
      dsimp only at ran
      unfold Engine.wait at ran
      split at ran
      · have extended := (Engine.dispatched ran).extends
        exact ⟨outside ▸ extended.1, .inl extended.2⟩
      · split at ran
        · next cmd read =>
            dsimp only at ran
            rw [outside, read]
            split at ran
            · cases ran
              refine ⟨?_, .inr rfl⟩
              dsimp only [Engine.written]
              split
              · exact List.prefix_append _ _
              · exact List.prefix_rfl
            · cases ran
              refine ⟨?_, .inr rfl⟩
              simp only [Engine.written, mode]
              exact List.prefix_rfl
        · cases ran
          have stays := left engine outside
          exact ⟨stays.1, .inl stays.2⟩
  | scanning task runner loop =>
      have all : engine.written = engine.sent ++ loop.sent.map EngineOutput.ofMessage := by
        simp only [Engine.written, mode]
      rw [mode] at ran
      dsimp only at ran
      rw [all]
      unfold Engine.scan at ran
      split at ran
      · next after passed =>
          cases ran
          refine ⟨?_, .inl rfl⟩
          exact (List.prefix_append_right_inj _).mpr ((sent_pass passed).map _)
      · next after passed =>
          have sent := sent_pass passed
          dsimp only at ran
          split at ran
          · rcases Checked.bind_eq_ok.mp ran with ⟨final, settled, assembled⟩
            cases assembled
            refine ⟨?_, .inr rfl⟩
            have whole := (List.prefix_append_right_inj engine.sent).mpr
              ((sent.trans (sent_settle settled)).map EngineOutput.ofMessage)
            cases tick.finale.responseWritten with
            | true => exact whole
            | false => exact whole
          · cases ran
            exact ⟨(List.prefix_append_right_inj _).mpr (sent.map _), .inr rfl⟩
  | left =>
      rw [mode] at ran
      cases ran
      exact ⟨List.prefix_rfl, .inl rfl⟩

/-! ### The ledger -/

/-- Why a command may go unanswered in a pass: it is a cancellation, a reply cannot be
written, a command waits for its delay, or the loop of a scan is given up. -/
inductive Loses (tick : Tick) (mode : Mode) (cmd : EngineCommand) : Prop
  | cancels (cancel : IsCancel cmd)
  | unwritten (broken : tick.replyWritten = false)
  | delayed (waiting : EngineCommand) (delays : mode = .delaying waiting)
  | unsettled (broken : tick.finale.responseWritten = false)
  | givenUp (broken : ¬tick.duringScan.Orderly)

/-- The command is served next; the ledger does not count what a scan loop wrote. -/
def Serving (Dropped : EngineCommand → Prop) (cmd : EngineCommand) (engine : Engine) : Prop :=
  Ledger Answers Dropped engine.read [cmd] (replies engine.sent)

theorem Serving.send (serving : Serving Dropped cmd engine) {reply : EngineReply}
    (answers : Answers cmd reply) (lost : tick.replyWritten = false → Dropped cmd) :
    Accounted Dropped (engine.send tick reply) := by
  unfold Engine.send
  split
  · refine ⟨[], rfl, ?_⟩
    have answered := serving.answer answers
    simpa [Engine.written] using answered
  · next unwritten =>
      exact ⟨[], rfl, serving.drop (lost (Bool.eq_false_of_not_eq_true unwritten))⟩

theorem Serving.dispatched (serving : Serving Dropped cmd engine)
    (lost : tick.replyWritten = false → Dropped cmd)
    (dispatched : Dispatched info tick cmd engine next) : Accounted Dropped next := by
  have cleared : Serving Dropped cmd { engine with settledScan := none } := serving
  cases dispatched with
  | plain reply answers plain => exact serving.send answers lost
  | shutdown requested =>
      have answers : Answers cmd (.ok cmd.requestId (.shutdown 0)) :=
        ⟨Or.inl rfl, requested ▸ .shutdown⟩
      rcases serving.send answers lost with ⟨waiting, waits, ledger⟩
      rw [written_send] at ledger
      refine ⟨[], rfl, ?_⟩
      unfold Engine.send at waits ledger
      split at waits
      all_goals
        cases waits
        exact ledger
  | page page reply requested served =>
      exact serving.send (answers_getChildren requested served) lost
  | refused reply answers plain => exact cleared.send answers lost
  | begun request requested =>
      refine ⟨[cmd], ⟨cmd, rfl, rfl, request, requested, rfl⟩, ?_⟩
      simpa [Engine.written, startRunner, ScanLoop.start] using show Ledger _ _ _ _ _ from serving

theorem Accounted.quiet (accounted : Accounted Dropped engine)
    (outside : engine.written = engine.sent) (lost : engine.mode ≠ .idle → ∀ cmd, Dropped cmd) :
    Accounted Dropped (if tick.isQuiet then engine else engine.leave) := by
  split
  · exact accounted
  · exact accounted.leave outside lost

theorem Accounted.serve (accounted : Accounted Dropped engine) (idle : engine.mode = .idle)
    (lost : ∀ cmd, Loses tick engine.mode cmd → Dropped cmd)
    (ran : Engine.serve info tick engine = .ok next) : Accounted Dropped next := by
  have outside : engine.written = engine.sent := by simp only [Engine.written, idle]
  unfold Engine.serve at ran
  split at ran
  · next cmd read =>
      rcases accounted with ⟨waiting, waits, ledger⟩
      rw [idle] at waits
      cases waits
      rw [outside] at ledger
      have serving : Serving Dropped cmd { engine with read := engine.read ++ [cmd] } :=
        ledger.wait
      dsimp only at ran
      split at ran
      · cases ran
        exact ⟨[cmd], rfl, serving⟩
      · exact serving.dispatched (fun broken => lost cmd (.unwritten broken))
          (Engine.dispatched ran)
  · cases ran
    exact accounted.quiet outside (fun busy => absurd idle busy)

/-- A delay drops the commands it reads, and itself when it is cancelled. -/
theorem Accounted.wait {waiting : EngineCommand} (accounted : Accounted Dropped engine)
    (delayed : engine.mode = .delaying waiting) (lost : ∀ cmd, Dropped cmd)
    (ran : Engine.wait info tick waiting engine = .ok next) : Accounted Dropped next := by
  have outside : engine.written = engine.sent := by simp only [Engine.written, delayed]
  have serving : Serving Dropped waiting engine := by
    rcases accounted with ⟨others, waits, ledger⟩
    rw [delayed] at waits
    cases waits
    rw [outside] at ledger
    exact ledger
  unfold Engine.wait at ran
  split at ran
  · exact serving.dispatched (fun _ => lost waiting) (Engine.dispatched ran)
  · split at ran
    · next cmd read =>
        have arrived : Ledger Answers Dropped (engine.read ++ [cmd]) [cmd, waiting]
            (replies engine.sent) := serving.wait
        dsimp only at ran
        split at ran
        · next cancel requested =>
            cases ran
            refine ⟨[], rfl, ?_⟩
            dsimp only [Engine.written]
            split
            · have answered : Answers cmd (delayCancelled cmd cancel) := by
                refine ⟨?_, requested ▸ .cancel cancel _⟩
                by_cases unnamed : cmd.requestId = ""
                · exact Or.inr ⟨unnamed, cancel, requested, if_pos unnamed⟩
                · exact Or.inl (if_neg unnamed)
              simpa using (arrived.answer answered).drop (lost _)
            · exact (arrived.drop (lost _)).drop (lost _)
        · cases ran
          exact ⟨[waiting], delayed ▸ rfl, by
            simpa [Engine.written, delayed] using arrived.drop (lost _)⟩
    · cases ran
      exact accounted.quiet outside (fun _ => lost)

/-- The ledger when the loop of a scan has read on. -/
theorem Heard.ledger {after : ScanLoop} {waiting : List EngineCommand}
    (heard : Heard tick loop after) (ledger : Ledger Answers Dropped engine.read waiting
      (replies engine.sent ++ loopReplies loop))
    (lost : ∀ cmd, IsCancel cmd ∨ tick.replyWritten = false → Dropped cmd) :
    Ledger Answers Dropped (engine.read ++ tick.command?.toList) waiting
      (replies engine.sent ++ loopReplies after) := by
  cases heard with
  | nothing silent same => simpa [silent, same] using ledger
  | unanswered cmd read reason same =>
      rw [read, Option.toList_some, same]
      exact ledger.wait.drop (lost cmd reason)
  | answered cmd reply read answers plain added =>
      rw [read, Option.toList_some, added, ← List.append_assoc]
      exact ledger.wait.answer answers

theorem Accounted.scan (accounted : Accounted Dropped engine)
    (scanning : engine.mode = .scanning task runner loop)
    (lost : ∀ cmd, Loses tick engine.mode cmd → Dropped cmd)
    (scanned : Scanned tick task runner loop engine next) : Accounted Dropped next := by
  have unheard : ∀ cmd, IsCancel cmd ∨ tick.replyWritten = false → Dropped cmd := by
    rintro cmd (cancels | unwritten)
    · exact lost cmd (.cancels cancels)
    · exact lost cmd (.unwritten unwritten)
  rcases accounted with ⟨waiting, waits, ledger⟩
  rw [scanning] at waits
  rcases waits with ⟨active, rfl, requests⟩
  simp only [Engine.written, scanning, replies_append] at ledger
  change Ledger _ _ _ _ (replies engine.sent ++ loopReplies loop) at ledger
  cases scanned with
  | leaves after same broken =>
      refine ⟨[], rfl, ?_⟩
      rw [← same] at ledger
      exact (replies_append _ _).symm ▸ ledger.drop (lost active (.givenUp broken))
  | goesOn after heard =>
      refine ⟨[active], ⟨active, rfl, requests⟩, ?_⟩
      exact (replies_append _ _).symm ▸ heard.ledger ledger unheard
  | settles after drained final response heard built added =>
      have served := heard.ledger ledger unheard
      have answers : Answers active (.ofCommand (Response.answer task.requestId response)) := by
        rcases requests with ⟨named, request, requested, target⟩
        have same := (scanResponse_targetPath built).trans target
        exact ⟨Or.inl named.symm, requested ▸ .scan request response same⟩
      split
      · next written =>
          refine ⟨[], rfl, ?_⟩
          have answered := served.answer answers
          rw [if_pos written] at added
          rw [List.append_assoc, ← added] at answered
          exact (replies_append _ _).symm ▸ answered
      · next unwritten =>
          have broken := Bool.eq_false_of_not_eq_true unwritten
          refine ⟨[], rfl, ?_⟩
          rw [if_neg unwritten, List.append_nil] at added
          rw [← added] at served
          exact (replies_append _ _).symm ▸ served.drop (lost active (.unsettled broken))

theorem Accounted.step (accounted : Accounted Dropped engine)
    (lost : ∀ cmd, Loses tick engine.mode cmd → Dropped cmd)
    (ran : Engine.step info engine tick = .ok next) : Accounted Dropped next := by
  unfold Engine.step at ran
  split at ran
  · next idle => exact accounted.serve idle lost ran
  · next waiting delayed =>
      exact accounted.wait delayed (fun cmd => lost cmd (.delayed waiting delayed)) ran
  · next task runner loop scanning => exact accounted.scan scanning lost (Engine.scanned ran)
  · cases ran
    exact accounted

end Engine

end PigTree
