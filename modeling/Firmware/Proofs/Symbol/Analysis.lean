import Firmware.Proofs.Symbol.History
import Mathlib.Data.List.Induction
import Mathlib.Data.List.Nodup

/-! # The analysis against the history of a program

The analysis threads a table through the commands and stops at the first error. It is
characterised here without a table: by what holds of every declaration and of every
command behind the ones before it. -/

namespace Firmware

/-! ## Rules about the items before an item -/

variable {Item State Error : Type}

/-- Every item of a list keeps a rule behind the items before it. -/
def Everywhere (Rule : List Item → Item → Prop) (items : List Item) : Prop :=
  ∀ before item after, items = before ++ item :: after → Rule before item

/-- The first item of a list that breaks a rule breaks it with an error. -/
def FirstFault (Rule : List Item → Item → Prop) (Breach : List Item → Item → Error → Prop)
    (items : List Item) (error : Error) : Prop :=
  ∃ before item after, items = before ++ item :: after ∧
    Everywhere Rule before ∧ Breach before item error

theorem everywhere_nil (Rule : List Item → Item → Prop) : Everywhere Rule [] := by
  intro before item after split
  simp at split

theorem everywhere_concat_iff (Rule : List Item → Item → Prop) (items : List Item)
    (item : Item) :
    Everywhere Rule (items ++ [item]) ↔ Everywhere Rule items ∧ Rule items item := by
  constructor
  · intro every
    refine ⟨?_, every items item [] rfl⟩
    intro before found after split
    refine every before found (after ++ [item]) ?_
    rw [split, List.append_assoc, List.cons_append]
  · rintro ⟨every, last⟩ before found after split
    rcases List.eq_nil_or_concat after with rfl | ⟨front, final, rfl⟩
    · rcases List.append_inj' split rfl |>.imp_right List.singleton_inj.mp with ⟨rfl, rfl⟩
      exact last
    · refine every before found front ?_
      have whole : items ++ [item] = (before ++ found :: front) ++ [final] := by
        simpa using split
      exact (List.append_inj' whole rfl).1

/-- A rule on a list is the rule on its front, and on its back behind the front. -/
theorem everywhere_append_iff (Rule : List Item → Item → Prop) (front back : List Item) :
    Everywhere Rule (front ++ back) ↔
      Everywhere Rule front ∧ Everywhere (fun before => Rule (front ++ before)) back := by
  induction back using List.reverseRecOn with
  | nil => simp [everywhere_nil]
  | append_singleton back item induction =>
      rw [← List.append_assoc, everywhere_concat_iff, everywhere_concat_iff, induction, and_assoc]

/-- A step that advances a state along the items that keep a rule, and fails at the
others. -/
structure FailsFast (step : State → Item → Except Error State) (state : List Item → State)
    (Rule : List Item → Item → Prop) (Breach : List Item → Item → Error → Prop) : Prop where
  advance : ∀ {before item}, Rule before item →
    step (state before) item = .ok (state (before ++ [item]))
  refuse : ∀ {before item error}, Breach before item error →
    step (state before) item = .error error
  total : ∀ before item, Rule before item ∨ ∃ error, Breach before item error

namespace FailsFast

variable {step : State → Item → Except Error State} {state : List Item → State}
  {Rule : List Item → Item → Prop} {Breach : List Item → Item → Error → Prop}

theorem foldlM_of_everywhere (fails : FailsFast step state Rule Breach) {items : List Item}
    (every : Everywhere Rule items) : items.foldlM step (state []) = .ok (state items) := by
  induction items using List.reverseRecOn with
  | nil => rfl
  | append_singleton items item induction =>
      rcases (everywhere_concat_iff _ _ _).mp every with ⟨every, last⟩
      rw [List.foldlM_append, induction every]
      simp [bind, Except.bind, pure, Except.pure, fails.advance last]

theorem foldlM_of_firstFault (fails : FailsFast step state Rule Breach) {items : List Item}
    {error : Error} (fault : FirstFault Rule Breach items error) :
    items.foldlM step (state []) = .error error := by
  rcases fault with ⟨before, item, after, rfl, every, breach⟩
  rw [List.foldlM_append, fails.foldlM_of_everywhere every]
  simp [bind, Except.bind, fails.refuse breach]

theorem everywhere_or_firstFault (fails : FailsFast step state Rule Breach)
    (items : List Item) :
    Everywhere Rule items ∨ ∃ error, FirstFault Rule Breach items error := by
  induction items using List.reverseRecOn with
  | nil => exact .inl (everywhere_nil Rule)
  | append_singleton items item induction =>
      rcases induction with every | ⟨error, before, found, after, rfl, every, breach⟩
      · rcases fails.total items item with rule | ⟨error, breach⟩
        · exact .inl ((everywhere_concat_iff _ _ _).mpr ⟨every, rule⟩)
        · exact .inr ⟨error, items, item, [], rfl, every, breach⟩
      · exact .inr ⟨error, before, found, after ++ [item], by simp, every, breach⟩

end FailsFast

/-! ## Declarations -/

theorem Declaration.everywhere_new_iff (declarations : List Declaration) :
    Everywhere (fun before declaration => ¬ Declares before declaration.name) declarations ↔
      (declarations.map name).Nodup := by
  induction declarations using List.reverseRecOn with
  | nil => simp [everywhere_nil]
  | append_singleton declarations declaration induction =>
      rw [everywhere_concat_iff, induction, List.map_append, List.map_singleton,
        ← List.concat_eq_append, List.nodup_concat]
      exact and_comm

theorem SymbolTable.declare_failsFast :
    FailsFast declare (fun declarations => recorded declarations [])
      (fun before declaration => ¬ Declaration.Declares before declaration.name)
      (fun before declaration error => Declaration.Declares before declaration.name ∧
        error = .duplicateDeclaration declaration.name) where
  advance := by
    intro before declaration new
    rw [← Declaration.typeOf?_eq_none_iff] at new
    rw [declare, find?_recorded, new, recorded, recorded, List.map_append]
    rfl
  refuse := by
    rintro before declaration error ⟨declared, rfl⟩
    rcases (Declaration.exists_typeOf?_iff _ _).mpr declared with ⟨type, known⟩
    rw [declare, find?_recorded, known]
    rfl
  total := by
    intro before declaration
    by_cases declared : Declaration.Declares before declaration.name
    · exact .inr ⟨_, declared, rfl⟩
    · exact .inl declared

/-! ## Commands -/

theorem Command.allowed_or_violates (declarations : List Declaration) (earlier : List Command)
    (command : Command) :
    command.Allowed declarations earlier ∨
      ∃ error, command.Violates declarations earlier error := by
  -- Past this case all variables of the command are declared.
  cases missing : command.names.find?
      (fun name => (Declaration.typeOf? declarations name).isNone) with
  | some name => exact .inr ⟨_, .undeclared missing⟩
  | none =>
      have declared : ∀ name ∈ command.names, Declaration.Declares declarations name := by
        intro name member
        have known := List.find?_eq_none.mp missing name member
        rwa [Option.isNone_iff_eq_none, Declaration.typeOf?_eq_none_iff, Classical.not_not] at known
      cases command with
      | assign target value =>
          rcases (Declaration.exists_typeOf?_iff _ _).mpr (declared target (by simp [names])) with
            ⟨type, known⟩
          by_cases clashes : type.Clashes ((SymbolTable.recorded declarations []).infer value)
          · exact .inr ⟨_, .mismatch known rfl clashes⟩
          · exact .inl ⟨type, known, clashes⟩
      | configurePin pin | configurePwm pin => exact .inl (declared pin (by simp [names]))
      | adjustPwm pin value =>
          have pinDeclared := declared pin (by simp [names])
          by_cases configured : ∃ frequency resolution,
              .configurePwm pin frequency resolution ∈ earlier
          · exact .inl ⟨pinDeclared, configured⟩
          · push Not at configured
            exact .inr ⟨_, .noPwm pinDeclared configured⟩
      | turnOn pin =>
          have pinDeclared := declared pin (by simp [names])
          rcases last : lastDirection? earlier pin with _ | (_ | _)
          · exact .inr ⟨_, .turnOnUnset pinDeclared last⟩
          · exact .inl ⟨pinDeclared, last⟩
          · exact .inr ⟨_, .turnOnInput pinDeclared last⟩
      | turnOff pin =>
          have pinDeclared := declared pin (by simp [names])
          rcases last : lastDirection? earlier pin with _ | (_ | _)
          · exact .inr ⟨_, .turnOffUnset pinDeclared last⟩
          · exact .inl ⟨pinDeclared, last⟩
          · exact .inr ⟨_, .turnOffInput pinDeclared last⟩
      | readDigital target pin =>
          have targetDeclared := declared target (by simp [names])
          have pinDeclared := declared pin (by simp [names])
          by_cases input : lastDirection? earlier pin = some .input
          · exact .inl ⟨targetDeclared, pinDeclared, input⟩
          · exact .inr ⟨_, .readDigital targetDeclared pinDeclared input⟩
      | readAnalog target pin =>
          have targetDeclared := declared target (by simp [names])
          have pinDeclared := declared pin (by simp [names])
          by_cases input : lastDirection? earlier pin = some .input
          · exact .inl ⟨targetDeclared, pinDeclared, input⟩
          · exact .inr ⟨_, .readAnalog targetDeclared pinDeclared input⟩
      | _ => exact .inl trivial

theorem SymbolTable.check_failsFast (declarations : List Declaration) :
    FailsFast check (recorded declarations) (Command.Allowed declarations)
      (Command.Violates declarations) where
  advance := check_recorded_of_allowed
  refuse := check_recorded_of_violates
  total := Command.allowed_or_violates declarations

/-! ## Programs -/

namespace Program

structure Accepted (program : Program) : Prop where
  distinct : (program.declarations.map Declaration.name).Nodup
  allowed : Everywhere (Command.Allowed program.declarations) program.commands

/-- The first fault of a program: a name that is declared before, or else a command
that is not allowed behind the ones before it. -/
inductive Refused (program : Program) : SemanticError → Prop
  | declaration {before repeated after} :
      program.declarations = before ++ repeated :: after →
      (before.map Declaration.name).Nodup →
      Declaration.Declares before repeated.name →
      Refused program (.duplicateDeclaration repeated.name)
  | command {before command after error} :
      (program.declarations.map Declaration.name).Nodup →
      program.commands = before ++ command :: after →
      Everywhere (Command.Allowed program.declarations) before →
      command.Violates program.declarations before error →
      Refused program error

theorem ofDeclarations_of_distinct {declarations : List Declaration}
    (distinct : (declarations.map Declaration.name).Nodup) :
    SymbolTable.ofDeclarations declarations = .ok (.recorded declarations []) := by
  rw [← Declaration.everywhere_new_iff] at distinct
  exact SymbolTable.declare_failsFast.foldlM_of_everywhere distinct

theorem ofDeclarations_of_repeated {before after : List Declaration} {repeated : Declaration}
    (distinct : (before.map Declaration.name).Nodup)
    (declared : Declaration.Declares before repeated.name) :
    SymbolTable.ofDeclarations (before ++ repeated :: after) =
      .error (.duplicateDeclaration repeated.name) := by
  rw [← Declaration.everywhere_new_iff] at distinct
  exact SymbolTable.declare_failsFast.foldlM_of_firstFault
    ⟨before, repeated, after, rfl, distinct, declared, rfl⟩

/-- Past distinct declarations, the analysis is the check of the commands. -/
theorem analyze_of_distinct {program : Program}
    (distinct : (program.declarations.map Declaration.name).Nodup) :
    program.analyze =
      program.commands.foldlM SymbolTable.check (.recorded program.declarations []) := by
  rw [analyze, ofDeclarations_of_distinct distinct]
  rfl

theorem analyze_of_accepted {program : Program} (accepted : program.Accepted) :
    program.analyze = .ok (.recorded program.declarations program.commands) := by
  rw [analyze_of_distinct accepted.distinct]
  exact (SymbolTable.check_failsFast program.declarations).foldlM_of_everywhere accepted.allowed

theorem analyze_of_refused {program : Program} {error : SemanticError}
    (refused : program.Refused error) : program.analyze = .error error := by
  cases refused with
  | declaration split distinct declared =>
      rw [analyze, split, ofDeclarations_of_repeated distinct declared]
      rfl
  | command distinct split allowed violates =>
      rw [analyze_of_distinct distinct]
      exact (SymbolTable.check_failsFast program.declarations).foldlM_of_firstFault
        ⟨_, _, _, split, allowed, violates⟩

theorem accepted_or_refused (program : Program) :
    program.Accepted ∨ ∃ error, program.Refused error := by
  rcases SymbolTable.declare_failsFast.everywhere_or_firstFault program.declarations with
    distinct | ⟨error, before, repeated, after, split, distinct, declared, rfl⟩
  · rw [Declaration.everywhere_new_iff] at distinct
    rcases (SymbolTable.check_failsFast program.declarations).everywhere_or_firstFault
      program.commands with allowed | ⟨error, before, command, after, split, allowed, violates⟩
    · exact .inl ⟨distinct, allowed⟩
    · exact .inr ⟨error, .command distinct split allowed violates⟩
  · rw [Declaration.everywhere_new_iff] at distinct
    exact .inr ⟨_, .declaration split distinct declared⟩

theorem analyze_eq_ok_iff (program : Program) (table : SymbolTable) :
    program.analyze = .ok table ↔
      program.Accepted ∧ table = .recorded program.declarations program.commands := by
  constructor
  · intro analyzed
    rcases accepted_or_refused program with accepted | ⟨error, refused⟩
    · rw [analyze_of_accepted accepted] at analyzed
      exact ⟨accepted, (Except.ok.inj analyzed).symm⟩
    · rw [analyze_of_refused refused] at analyzed
      cases analyzed
  · rintro ⟨accepted, rfl⟩
    exact analyze_of_accepted accepted

theorem analyze_eq_error_iff (program : Program) (error : SemanticError) :
    program.analyze = .error error ↔ program.Refused error := by
  constructor
  · intro analyzed
    rcases accepted_or_refused program with accepted | ⟨other, refused⟩
    · rw [analyze_of_accepted accepted] at analyzed
      cases analyzed
    · rw [analyze_of_refused refused] at analyzed
      rcases Except.error.inj analyzed with rfl
      exact refused
  · exact analyze_of_refused

/-- The analysis accepts the programs that keep every rule, with the table of all their
commands, and refuses any other with its first fault. -/
theorem analyze_agrees_with_history (program : Program) :
    (∀ table, program.analyze = .ok table ↔
      program.Accepted ∧ table = .recorded program.declarations program.commands) ∧
    ∀ error, program.analyze = .error error ↔ program.Refused error :=
  ⟨analyze_eq_ok_iff program, analyze_eq_error_iff program⟩

end Program

end Firmware
