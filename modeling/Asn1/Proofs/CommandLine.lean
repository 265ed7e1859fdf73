import Asn1.CommandLine.Arguments

/-!
# What the options of the command line ask for

Opposite options are not accepted together, so that each pair of them says one thing or nothing.
-/

namespace Asn1

namespace CommandLine.Given

/-- One of two opposite options is given, or neither. -/
inductive Chooses (given : Given) (yes no : Switch) : Option Bool → Prop where
  | yes : yes ∈ given.flags → no ∉ given.flags → Chooses given yes no (some true)
  | no : no ∈ given.flags → yes ∉ given.flags → Chooses given yes no (some false)
  | neither : yes ∉ given.flags → no ∉ given.flags → Chooses given yes no none

/-- More or fewer messages are asked for, once or more often, or neither. -/
inductive AsksForLevel (given : Given) : Option LogLevel → Prop where
  | debug : 2 ≤ given.verbose → given.quiet = 0 → AsksForLevel given (some .debug)
  | info : given.verbose = 1 → given.quiet = 0 → AsksForLevel given (some .info)
  | off : given.verbose = 0 → 2 ≤ given.quiet → AsksForLevel given (some .off)
  | error : given.verbose = 0 → given.quiet = 1 → AsksForLevel given (some .error)
  | neither : given.verbose = 0 → given.quiet = 0 → AsksForLevel given none

variable {given : Given} {yes no : Switch}

theorem chooses_choice? (agree : ¬ (yes ∈ given.flags ∧ no ∈ given.flags)) :
    given.Chooses yes no (given.choice? yes no) := by
  unfold choice?
  split
  next isYes => exact .yes isYes fun isNo => agree ⟨isYes, isNo⟩
  next notYes =>
    split
    next isNo => exact .no isNo notYes
    next notNo => exact .neither notYes notNo

theorem asksForLevel_logLevel? (agree : ¬ (0 < given.verbose ∧ 0 < given.quiet)) :
    given.AsksForLevel given.logLevel? := by
  unfold logLevel?
  cases isVerbose : given.verbose with
  | zero =>
      cases isQuiet : given.quiet with
      | zero => exact .neither isVerbose isQuiet
      | succ others =>
          cases others with
          | zero => exact .error isVerbose isQuiet
          | succ others => exact .off isVerbose (by omega)
  | succ others =>
      have notQuiet : given.quiet = 0 := by omega
      cases others with
      | zero => exact .info isVerbose notQuiet
      | succ others => exact .debug (by omega) notQuiet

theorem arguments_eq_ok_iff {command? : Option Command} {arguments : Arguments} :
    given.arguments command? = .ok arguments ↔
      given.isContradictory = false ∧ arguments =
        { configFile? := given.configFile?
          mode? := given.mode?
          validateUtf8? := given.choice? .validateUtf8 .noValidateUtf8
          teletexAsLatin1? := given.choice? .teletexAsLatin1 .noTeletexAsLatin1
          inputFormat? := given.inputFormat?
          outputFormat? := given.outputFormat?
          logLevel? := given.logLevel?
          logFile? := given.logFile?
          command? } := by
  unfold CommandLine.Given.arguments
  cases given.isContradictory with
  | true => simp
  | false => simp [eq_comm]

end CommandLine.Given

namespace CommandLine

theorem exists_of_bind_eq_ok {α β : Type} {first : Except UsageError α}
    {next : α → Except UsageError β} {result : β} (succeeded : first >>= next = .ok result) :
    ∃ value, first = .ok value ∧ next value = .ok result := by
  cases first with
  | error error => cases succeeded
  | ok value => exact ⟨value, rfl, succeeded⟩

/-- The options of a command line that is accepted: all its parts make them up, and they go
together. -/
theorem exists_given_of_parse {words : List String} {arguments : Arguments}
    (accepted : parse words = .ok arguments) :
    ∃ (given : Given) (command? : Option Command),
      ((globalScope.read {} words).parts ++ (globalScope.read {} words).pending?.toList).foldlM
        Given.add {} = .ok given ∧ given.arguments command? = .ok arguments := by
  rw [List.foldlM_append]
  obtain ⟨settled, isSettled, accepted⟩ := exists_of_bind_eq_ok accepted
  rw [isSettled]
  dsimp only at accepted
  split at accepted
  all_goals
    obtain ⟨command?, -, accepted⟩ := exists_of_bind_eq_ok accepted
    obtain ⟨given, isGiven, accepted⟩ := exists_of_bind_eq_ok accepted
    exact ⟨given, command?, isGiven, accepted⟩

end CommandLine

end Asn1
