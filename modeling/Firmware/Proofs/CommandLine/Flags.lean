import Firmware.CommandLine.Options
import Mathlib.Data.List.Nodup

/-! # Flags in any order

The arguments of a command are its flags, one after another, and in whatever order they are
given they make the same request. -/

namespace Firmware.CommandLine

/-- A part of a command: the input, or a flag with its value. -/
inductive Flag where
  | input (argument : String)
  | output (argument : String)
  | check
  | verbose
  deriving DecidableEq

namespace Flag

/-- Of each kind there is one flag at most. -/
def kind : Flag → Nat
  | .input _ => 0
  | .output _ => 1
  | .check => 2
  | .verbose => 3

/-- The ways to write a flag. A value does not look like a flag itself. -/
inductive Spelled : Flag → List String → Prop
  | input {argument} : isFlag argument = false → Spelled (.input argument) [argument]
  | output {argument name} : isFlag argument = false → name = "-o" ∨ name = "--output" →
      Spelled (.output argument) [name, argument]
  | check : Spelled .check ["--check"]
  | verbose {name} : name = "-v" ∨ name = "--verbose" → Spelled .verbose [name]

/-- Arguments are flags one after another. -/
inductive Written : List Flag → List String → Prop
  | nil : Written [] []
  | cons {flag flags words rest} :
      flag.Spelled words → Written flags rest → Written (flag :: flags) (words ++ rest)

end Flag

/-- What a user can choose for a run. -/
structure Choice where
  input : String
  output : Option String := none
  check : Bool := false
  verbose : Bool := false

namespace Choice

def flags (choice : Choice) : List Flag :=
  .input choice.input :: (choice.output.toList.map .output ++
    ((if choice.check then [.check] else []) ++ if choice.verbose then [.verbose] else []))

/-- Without a place to write to, the standard output is meant. -/
def options (choice : Choice) : Options :=
  { input := .ofArgument choice.input
    output := .ofArgument (choice.output.getD "-")
    check := choice.check
    verbose := choice.verbose }

/-- The arguments write what is chosen, in some order. -/
def GivenBy (choice : Choice) (arguments : List String) : Prop :=
  ∃ flags, flags.Perm choice.flags ∧ Flag.Written flags arguments

end Choice

/-! ## One flag after another -/

namespace Arguments

/-- Whether a flag has not been read yet. -/
def Lacks (arguments : Arguments) : Flag → Prop
  | .input _ => arguments.input = none
  | .output _ => arguments.output = none
  | .check => arguments.check = false
  | .verbose => arguments.verbose = false

def add (arguments : Arguments) : Flag → Arguments
  | .input argument => { arguments with input := some (.ofArgument argument) }
  | .output argument => { arguments with output := some (.ofArgument argument) }
  | .check => { arguments with check := true }
  | .verbose => { arguments with verbose := true }

variable {arguments : Arguments} {flag : Flag} {words : List String}

theorem read_spelled (spelled : flag.Spelled words) (lacks : arguments.Lacks flag)
    (rest : List String) : arguments.read (words ++ rest) = (arguments.add flag).read rest := by
  cases spelled with
  | @input argument isValue =>
      have different : ∀ {other}, isFlag other = true → argument ≠ other := by
        intro other isFlag same
        rw [same, isFlag] at isValue
        cases isValue
      have separator : argument ≠ "--" := different (by decide)
      have check : argument ≠ "--check" := different (by decide)
      have verbose : ¬ (argument = "-v" ∨ argument = "--verbose") :=
        not_or.mpr ⟨different (by decide), different (by decide)⟩
      have output : ¬ (argument = "-o" ∨ argument = "--output") :=
        not_or.mpr ⟨different (by decide), different (by decide)⟩
      have noInput : arguments.input = none := lacks
      rw [List.singleton_append, read.eq_def]
      simp only [separator, check, verbose, output, isValue, takeInput, noInput, if_false,
        Option.isSome, Bool.false_eq_true]
      rfl
  | @output argument name isValue isName =>
      have noOutput : arguments.output = none := lacks
      rw [List.cons_append, List.singleton_append, read.eq_def]
      rcases isName with rfl | rfl <;> simp [isValue, noOutput, add]
  | check =>
      have noCheck : arguments.check = false := lacks
      rw [List.singleton_append, read.eq_def]
      simp [noCheck, add]
  | verbose isName =>
      have quiet : arguments.verbose = false := lacks
      rw [List.singleton_append, read.eq_def]
      rcases isName with rfl | rfl <;> simp [quiet, add]

theorem lacks_add {other : Flag} (different : other.kind ≠ flag.kind)
    (lacks : arguments.Lacks other) : (arguments.add flag).Lacks other := by
  cases flag <;> cases other <;> first | exact lacks | exact absurd rfl different

theorem add_comm {other : Flag} (different : other.kind ≠ flag.kind) :
    (arguments.add flag).add other = (arguments.add other).add flag := by
  cases flag <;> cases other <;> first | rfl | exact absurd rfl different

/-- Flags of different kinds are all read. -/
theorem read_written {flags : List Flag} (written : Flag.Written flags words)
    (distinct : (flags.map Flag.kind).Nodup) (lacks : ∀ flag ∈ flags, arguments.Lacks flag) :
    arguments.read words = (flags.foldl add arguments).finish := by
  induction written generalizing arguments with
  | nil => rw [read, List.foldl_nil]
  | @cons flag flags words rest spelled _ induction =>
      rw [List.map_cons, List.nodup_cons] at distinct
      rw [read_spelled spelled (lacks flag List.mem_cons_self), List.foldl_cons]
      apply induction distinct.2
      intro other member
      apply lacks_add _ (lacks other (List.mem_cons_of_mem _ member))
      intro same
      apply distinct.1
      rw [← same]
      exact List.mem_map_of_mem member

/-- The order of flags of different kinds does not matter. -/
theorem foldl_add_perm {flags others : List Flag} (permuted : flags.Perm others)
    (distinct : (flags.map Flag.kind).Nodup) (arguments : Arguments) :
    flags.foldl add arguments = others.foldl add arguments := by
  apply permuted.foldl_eq'
  intro first firstMember second secondMember arguments
  by_cases same : second.kind = first.kind
  · rw [List.inj_on_of_nodup_map distinct secondMember firstMember same]
  · exact add_comm same

end Arguments

/-- No flag of a run asks for the version. -/
theorem Flag.Spelled.ne_version {flag : Flag} {words : List String} (spelled : flag.Spelled words)
    {word : String} (member : word ∈ words) : word ≠ "--version" ∧ word ≠ "-V" := by
  have value : ∀ {argument}, isFlag argument = false →
      argument ≠ "--version" ∧ argument ≠ "-V" := by
    intro argument isValue
    constructor <;>
      · intro same
        rw [same] at isValue
        revert isValue
        decide
  cases spelled with
  | input isValue =>
      rw [List.mem_singleton.mp member]
      exact value isValue
  | output isValue isName =>
      rcases List.mem_cons.mp member with rfl | isArgument
      · rcases isName with rfl | rfl <;> decide
      · rw [List.mem_singleton.mp isArgument]
        exact value isValue
  | check =>
      rw [List.mem_singleton.mp member]
      decide
  | verbose isName =>
      rw [List.mem_singleton.mp member]
      rcases isName with rfl | rfl <;> decide

theorem Flag.Written.asksVersion {flags : List Flag} {arguments : List String}
    (written : Flag.Written flags arguments) : asksVersion arguments = false := by
  have absent : ∀ word ∈ arguments, word ≠ "--version" ∧ word ≠ "-V" := by
    induction written with
    | nil => simp
    | cons spelled _ induction =>
        intro word member
        rcases List.mem_append.mp member with here | later
        · exact spelled.ne_version here
        · exact induction word later
  rw [CommandLine.asksVersion, List.any_eq_false]
  intro word member
  have distinct := absent word (List.takeWhile_subset _ member)
  simp [distinct]

namespace Choice

variable {choice : Choice}

theorem nodup_flags (choice : Choice) : (choice.flags.map Flag.kind).Nodup := by
  rcases choice with ⟨input, output, check, verbose⟩
  cases output <;> cases check <;> cases verbose <;> simp [flags, Flag.kind]

theorem finish_flags (choice : Choice) :
    (choice.flags.foldl Arguments.add {}).finish = .ok (.compile choice.options) := by
  rcases choice with ⟨input, output, check, verbose⟩
  cases output <;> cases check <;> cases verbose <;> rfl

/-- Flags that are given in any order make the request that is chosen. -/
theorem GivenBy.ofArguments {arguments : List String} (given : choice.GivenBy arguments) :
    Request.ofArguments arguments = .ok (.compile choice.options) := by
  rcases given with ⟨flags, permuted, written⟩
  have distinct : (flags.map Flag.kind).Nodup :=
    (permuted.map Flag.kind).nodup_iff.mpr choice.nodup_flags
  have lacks : ∀ flag ∈ flags, Arguments.Lacks {} flag := by
    intro flag member
    cases flag <;> rfl
  rw [Request.ofArguments, written.asksVersion, if_neg Bool.false_ne_true,
    Arguments.read_written written distinct lacks, Arguments.foldl_add_perm permuted distinct,
    choice.finish_flags]

end Choice

end Firmware.CommandLine
