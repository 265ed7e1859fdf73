import Asn1.Proofs.Writer
import Asn1.Surroundings
import Mathlib.Data.List.Infix

/-!
# Steps of a run on a tree of files

Messages are logged before anything is shown, and a run ends with the first of them that its log
file does not take. What is shown afterwards goes as far as standard output takes it.
-/

namespace Asn1

theorem WriteError.kind_fileError (error : WriteError) : error.fileError.kind = error := by
  cases error <;> rfl

theorem FileTree.contents?_put (tree : FileTree) (place : Place) (contents : Octets) :
    (tree.put place contents).contents? place = some contents := by
  rw [contents?, put, List.lookup_cons_self]

namespace Sink

variable {Target : Type} (sink : Sink) {received : Target → Octets}
  {put : Octets → Target → Target}

def limitsAt (received : Target → Octets) : Limits Target FileError WriteError where
  received := received
  limit? := sink.limit?
  kind := FileError.kind
  failure := sink.failure
  failsToFlush := sink.failsToFlush

theorem isLimited_writerAt (kept : ∀ octets target, received (put octets target) = octets) :
    (sink.writerAt received put).IsLimited (sink.limitsAt received) where
  write octets target := by
    have taken := sink.takes_write (received target) octets
    change (sink.limitsAt received).Takes target octets
      (({ sink with received := received target }.write octets).1.mapError WriteError.fileError,
        put ({ sink with received := received target }.write octets).2.received target)
    generalize { sink with received := received target }.write octets = outcome at taken ⊢
    obtain ⟨result, after⟩ := outcome
    cases taken with
    | all fits isReceived => exact .all fits ((kept _ _).trans isReceived)
    | few isLimit beyond isKind isReceived =>
        exact .few isLimit beyond ((WriteError.kind_fileError _).trans isKind)
          ((kept _ _).trans isReceived)
  flush target := by
    have flushed := sink.flushes_flush (received target)
    change (sink.limitsAt received).Flushes target
      (sink.flush.1.mapError WriteError.fileError, target)
    generalize sink.flush.1 = result at flushed ⊢
    cases flushed with
    | passedOn passes => exact .passedOn passes rfl
    | failed fails isKind => exact .failed fails ((WriteError.kind_fileError _).trans isKind) rfl

end Sink

namespace Limits

variable {Target Failure Failure' Kind Kind' : Type} {limits : Limits Target Failure Kind}
  {others : Limits Target Failure' Kind'} {octets : Octets}
  {steps : Steps (StateM Target) Failure Unit}
  {handle : Failure → Steps (StateM Target) Failure' Unit}

/-- What handles a failure does not change what is taken. -/
theorem Passes.recover (passes : limits.Passes octets steps)
    (sameReceived : others.received = limits.received) (sameLimit : others.limit? = limits.limit?)
    (handled : ∀ failure target, ∃ failure' after,
      (handle failure).on target = (.error failure', after) ∧
        others.kind failure' = others.failure ∧ others.received after = others.received target) :
    others.Passes octets (steps.recover handle) := by
  intro target
  have taken := passes target
  rw [Steps.recover_on]
  generalize steps.on target = outcome at taken ⊢
  cases taken with
  | all fits received =>
      rw [← sameLimit, ← sameReceived] at fits
      exact .all fits (by rw [sameReceived, received])
  | @few limit failure middle isLimit beyond _ received =>
      obtain ⟨failure', after, isHandled, isKind, kept⟩ := handled failure middle
      dsimp only
      rw [isHandled]
      rw [← sameLimit] at isLimit
      rw [← sameReceived] at beyond received
      exact .few isLimit beyond isKind (kept.trans received)

end Limits

namespace Surroundings

variable (around : Surroundings)

/-- The messages of a run go to the log file at a place, or are shown if there is none. -/
def logger (config : Config) (place? : Option Place) : Logger (StateM Effects) where
  limit := config.logLevel
  file? := place?.map fun place => (config.logFile?.getD "", around.file place)

/-- What a run puts in its log file. -/
def logged (config : Config) (notices : List Notice) : Octets :=
  (config.logLevel.admitted notices).flatMap fun notice =>
    Utf8.ofString (notice.logLine around.time)

/-- The log file, if there is one, takes as many more octets. -/
def HasRoom (tree : FileTree) (place? : Option Place) (octets : Octets) : Prop :=
  ∀ place ∈ place?, ∀ limit ∈ around.limit? place,
    octets.length ≤ limit - ((tree.contents? place).getD []).length

def logLimits (place : Place) : Limits Effects ExitError ExitError where
  received effects := (effects.tree.contents? place).getD []
  limit? := around.limit? place
  kind := id
  failure := .failure
  failsToFlush := false

def outputLimits : Limits Effects FileError WriteError := around.output.limitsAt Effects.output

variable {around} {directory : String} {config : Config} {place : Place} {place? : Option Place}
  {notice : Notice} {notices : List Notice} {before : Effects}

theorem isLimited_standardOutput (around : Surroundings) :
    around.standardOutput.IsLimited around.outputLimits :=
  Sink.isLimited_writerAt _ fun _ _ => rfl

theorem isLimited_file : (around.file place).IsLimited
    (Sink.limitsAt { limit? := around.limit? place } fun effects : Effects =>
      (effects.tree.contents? place).getD []) :=
  Sink.isLimited_writerAt _ fun octets effects => by
    rw [FileTree.contents?_put, Option.getD_some]

theorem passes_append : (around.logLimits place).Passes (Utf8.ofString (notice.logLine around.time))
    ((around.host directory).append (around.logger config (some place)) notice) :=
  (isLimited_file.passes_print _).recover rfl rfl fun _ _ => ⟨.failure, _, rfl, rfl, rfl⟩

/-- Logging moves what is seen as extending a file and showing a notice do. -/
theorem moves_log {Seen : Type} {relation : Seen → Seen → Prop} [IsPreorder Seen relation]
    {seen : Effects → Seen}
    (puts : ∀ place octets (effects : Effects),
      relation (seen effects) (seen { effects with tree := effects.tree.put place octets }))
    (shows : ∀ notice (effects : Effects),
      relation (seen effects) (seen { effects with shown := effects.shown ++ [notice] }))
    (place? : Option Place) (notices : List Notice) :
    ((around.host directory).log (around.logger config place?) notices).Moves relation seen := by
  refine Steps.moves_forM (fun notice => ?_) _
  cases place? with
  | none => exact fun before => shows notice before
  | some place =>
      have printed : ((around.file place).print (notice.logLine around.time)).Moves relation seen :=
        Writer.moves_print (fun _ before => puts place _ before) _
      exact printed.recover fun error before => shows (.logLost _ error) before

theorem moves_conclude_shown (config : Config) (place? : Option Place) (outcome : Outcome) :
    ((around.host directory).conclude (around.logger config place?) outcome).Moves (· <+: ·)
      Effects.shown := by
  have logs (notices : List Notice) :
      ((around.host directory).log (around.logger config place?) notices).Moves (· <+: ·)
        Effects.shown :=
    moves_log (fun _ _ _ => List.prefix_rfl) (fun _ _ => List.prefix_append _ _) _ _
  refine (logs _).bind fun _ => ?_
  cases outcome.result with
  | error error => exact Steps.moves_throw error
  | ok subject =>
      have shows : (around.standardOutput.output FileError.kind .brokenPipe subject).Moves
          (· <+: ·) Effects.shown :=
        Writer.moves_output (fun _ _ => List.prefix_rfl) (fun _ => List.prefix_rfl) _ _ _
      exact shows.recover fun _ => (logs _).bind fun _ => Steps.moves_throw _

theorem forM_append_on (limit : LogLevel) (notices : List Notice) (before : Effects) :
    (forM notices ((around.host directory).append ⟨limit, none⟩)).on before =
      (.ok (), { before with shown := before.shown ++ notices }) := by
  induction notices generalizing before with
  | nil => rw [List.append_nil]; rfl
  | cons notice notices inductionHypothesis =>
      have shown : ((around.host directory).append ⟨limit, none⟩ notice).on before =
          (.ok (), { before with shown := before.shown ++ [notice] }) := rfl
      rw [List.forM_cons, Steps.bind_on, shown]
      dsimp only
      rw [inductionHypothesis, List.append_assoc, List.singleton_append]

theorem log_early_on (notices : List Notice) (before : Effects) :
    ((around.host directory).log .early notices).on before =
      (.ok (), { before with shown := before.shown ++ earlyLevel.admitted notices }) :=
  forM_append_on earlyLevel _ before

/-- Logging ends a run exactly if the log file has no room for all that is to be logged. -/
theorem log_on (around : Surroundings) (directory : String) (config : Config)
    (place? : Option Place) (notices : List Notice) (before : Effects) : ∃ result after,
      ((around.host directory).log (around.logger config place?) notices).on before =
        (result, after) ∧ after.output = before.output ∧
      (result = .ok () ∧ around.HasRoom before.tree place? (around.logged config notices) ∨
        result = .error .failure ∧
          ¬ around.HasRoom before.tree place? (around.logged config notices)) := by
  have moves : ((around.host directory).log (around.logger config place?) notices).Moves (· = ·)
      Effects.output := moves_log (fun _ _ _ => rfl) (fun _ _ => rfl) _ _
  have kept := (moves before).symm
  rcases ended : ((around.host directory).log (around.logger config place?) notices).on before
    with ⟨result, after⟩
  rw [ended] at kept
  refine ⟨result, after, rfl, kept, ?_⟩
  cases place? with
  | none =>
      cases (forM_append_on config.logLevel _ before).symm.trans ended
      exact .inl ⟨rfl, nofun⟩
  | some place =>
      have passes : (around.logLimits place).Passes (around.logged config notices)
          ((around.host directory).log (around.logger config (some place)) notices) :=
        Limits.passes_forM (fun _ => passes_append) _
      have taken := passes before
      rw [ended] at taken
      cases taken with
      | all fits =>
          refine .inl ⟨rfl, ?_⟩
          rintro _ ⟨⟩
          exact fits
      | few isLimit beyond isFailure =>
          refine .inr ⟨congrArg Except.error isFailure, fun hasRoom => ?_⟩
          exact absurd (hasRoom place rfl _ isLimit) (Nat.not_le.mpr beyond)

/-- How a run ends that comes as far as its command: its messages are logged before the command
ends it, and only then is anything shown. -/
inductive Concludes (around : Surroundings) (config : Config) (tree : FileTree)
    (place? : Option Place) (outcome : Outcome) : Except ExitError Unit → Octets → Prop where
  | unlogged : ¬ around.HasRoom tree place? (around.logged config outcome.notices) →
      Concludes around config tree place? outcome (.error .failure) []
  | stopped {error} : around.HasRoom tree place? (around.logged config outcome.notices) →
      outcome.result = .error error →
      Concludes around config tree place? outcome (.error error) []
  | shown {subject after} :
      around.HasRoom tree place? (around.logged config outcome.notices) →
      outcome.result = .ok subject →
      around.outputLimits.Shows .brokenPipe (Utf8.ofString (String.join subject.pieces))
        (.ok (), after) →
      Concludes around config tree place? outcome (.ok ()) after.output
  | unshown {subject failure after} :
      around.HasRoom tree place? (around.logged config outcome.notices) →
      outcome.result = .ok subject →
      around.outputLimits.Shows .brokenPipe (Utf8.ofString (String.join subject.pieces))
        (.error failure, after) →
      Concludes around config tree place? outcome (.error .failure) after.output

/-- That the output cannot be written ends a run in the same way if that can be logged or not. -/
theorem log_throw_on (around : Surroundings) (directory : String) (config : Config)
    (place? : Option Place) (notices : List Notice) (before : Effects) : ∃ after,
    Steps.on (do
        (around.host directory).log (around.logger config place?) notices
        throw ExitError.failure : Steps (StateM Effects) ExitError Unit) before =
      (.error .failure, after) ∧ after.output = before.output := by
  obtain ⟨result, after, logs, kept, ⟨rfl, _⟩ | ⟨rfl, _⟩⟩ :=
    log_on around directory config place? notices before
  · refine ⟨after, ?_, kept⟩
    rw [Steps.bind_on, logs]
    rfl
  · refine ⟨after, ?_, kept⟩
    rw [Steps.bind_on, logs]

theorem conclude_on (around : Surroundings) (directory : String) (config : Config)
    (place? : Option Place) (outcome : Outcome) (nothing : before.output = []) : ∃ result after,
    ((around.host directory).conclude (around.logger config place?) outcome).on before =
      (result, after) ∧
      around.Concludes config before.tree place? outcome result after.output := by
  obtain ⟨logging, middle, logs, kept, ⟨rfl, hasRoom⟩ | ⟨rfl, noRoom⟩⟩ :=
    log_on around directory config place? outcome.notices before
  · rw [nothing] at kept
    rw [Host.conclude, Steps.bind_on, logs]
    dsimp only
    cases came : outcome.result with
    | error error => exact ⟨.error error, middle, rfl, kept ▸ .stopped hasRoom came⟩
    | ok subject =>
        have isOutput : (around.host directory).output = around.standardOutput := rfl
        have shows : around.outputLimits.Shows .brokenPipe
            (Utf8.ofString (String.join subject.pieces))
            ((around.standardOutput.output FileError.kind .brokenPipe subject).on middle) :=
          (isLimited_standardOutput around).shows kept .brokenPipe subject
        dsimp only
        rw [Steps.recover_on, isOutput]
        generalize (around.standardOutput.output FileError.kind .brokenPipe subject).on middle =
          written at shows ⊢
        obtain ⟨failure | _, written⟩ := written
        · obtain ⟨after, refused, same⟩ := log_throw_on around directory config place?
            [.outputUnwritten failure] written
          exact ⟨.error .failure, after, refused, same ▸ .unshown hasRoom came shows⟩
        · exact ⟨.ok (), written, rfl, .shown hasRoom came shows⟩
  · refine ⟨.error .failure, middle, ?_, ?_⟩
    · rw [Host.conclude, Steps.bind_on, logs]
    · rw [kept, nothing]
      exact .unlogged noRoom

end Surroundings

end Asn1
