import Sl3.ParameterCount

/-! Setting all parameters of a Command at once, alone or for a run: which slots a refused
list has changed by the time it is refused. -/
namespace Sl3.ParameterSetting
open Command DbValues
variable {q : Query}

/-- Each slot holds the given value under the dbtype that it had. -/
def Holds (before : Command q) (values : DbValues) (after : Command q) : Prop :=
  after.parameters.dbtypes = before.parameters.dbtypes ∧ after.parameters.values = values.values

/-- A list of parameters takes hold of all slots or of none, given to `setParameters` or to a run,
which has bound and stepped nothing when the list is refused. The empty list stands for no list in a run. -/
structure AllOrNothing (p : Platform) (cmd : Command q) (values : DbValues) : Prop where
  refused : ∀ e left, setParameters values cmd = .error e left → left = cmd
  taken : ∀ done left, setParameters values cmd = .ok done left → left.stmt = cmd.stmt ∧ Holds cmd values left
  execute_refused : ∀ e left, setParameters values cmd = .error e left → cmd.isValid = true → values ≠ [] →
    ∀ (σ : Type) (callback : Callback σ) (c : σ), execute p callback values (cmd,c) = .error (.sl3 e) (cmd,c)
  execute_taken : ∀ done left, setParameters values cmd = .ok done left → cmd.isValid = true → values ≠ [] →
    ∀ (σ : Type) (callback : Callback σ) (c : σ), Holds cmd values (leftBy (execute p callback values (cmd,c))).1
  select_refused : ∀ e left, setParameters values cmd = .error e left → cmd.isValid = true → values ≠ [] →
    ∀ types, select p values types cmd = .error (.sl3 e) cmd
  select_taken : ∀ done left, setParameters values cmd = .ok done left → cmd.isValid = true → values ≠ [] →
    ∀ types, Holds cmd values (leftBy (select p values types cmd))

/-- The slots before the first one that refuses its value hold their new values already. -/
def Harmless (slots values : DbValues) : Prop :=
  ∀ before d after given value rest, slots = before ++ d::after → values = given ++ value::rest →
    Fits before given → d.canAssign value = false → before.values = given.values

theorem assignLoop_same_iff {before given : DbValues} (same : before.length = given.length) :
    assignLoop before given = before ↔ before.values = given.values := by
  constructor
  · intro kept
    rw [← assignLoop_values same,kept]
  · intro equal
    exact eq_of_dbtypes_values (assignLoop_dbtypes before given) ((assignLoop_values same).trans equal.symm)

section command
variable {cmd : Command q} {values : DbValues}

theorem setParameters_stops {before after given rest : DbValues} {d value : DbValue}
    (slots : cmd.parameters = before ++ d::after) (fits : Fits before given) (misfit : d.canAssign value = false)
    (same : (given ++ value::rest).length = cmd.parameters.length) :
    setParameters (given ++ value::rest) cmd =
      .error (d.cannotAssign value) {cmd with parameters := assignLoop before given ++ d::after} := by
  unfold setParameters
  rw [if_neg (not_not.mpr same),slots,assignSlots_stops fits misfit]

theorem setParameters_harmless (harmless : values.length = cmd.parameters.length → Harmless cmd.parameters values)
    {e : Error} {left : Command q} (refused : setParameters values cmd = .error e left) : left = cmd := by
  by_cases same : values.length = cmd.parameters.length
  · by_cases fits : Fits cmd.parameters values
    · simp [setParameters_fits fits] at refused
    · obtain ⟨before,d,after,given,value,rest,slots,rfl,fitting,misfit⟩ := first_misfit same.symm fits
      have equal := harmless same before d after given value rest slots rfl fitting misfit
      have kept := (assignLoop_same_iff fitting.length).mpr equal
      rw [setParameters_stops slots fitting misfit same,kept,← slots] at refused
      cases refused
      rfl
  · rw [setParameters,if_pos same] at refused
    cases refused
    rfl

theorem setParameters_taken {done : Unit} {left : Command q} (taken : setParameters values cmd = .ok done left) :
    left.stmt = cmd.stmt ∧ Holds cmd values left := by
  by_cases fits : Fits cmd.parameters values
  · rw [setParameters_fits fits] at taken
    cases taken
    exact ⟨rfl,assignLoop_dbtypes _ _,assignLoop_values fits.length⟩
  · obtain ⟨e,other,refused,_⟩ := setParameters_misfit fits
    simp [refused] at taken

variable {p : Platform} {left : Command q}

theorem setup_refused {e : Error} (refused : setParameters values cmd = .error e left) (valid : cmd.isValid = true)
    (given : values ≠ []) : setup p values cmd = .error e left := by
  have some : values.length > 0 := List.length_pos_iff.mpr given
  rw [setup_eq,if_pos valid,if_pos some,refused]

theorem setup_taken {done : Unit} (taken : setParameters values cmd = .ok done left) (valid : cmd.isValid = true)
    (given : values ≠ []) : setup p values cmd = Command.bind p left := by
  have some : values.length > 0 := List.length_pos_iff.mpr given
  rw [setup_eq,if_pos valid,if_pos some,taken]

theorem execute_parameters {σ : Type} (p : Platform) (callback : Callback σ) (values : DbValues) (cmd : Command q) (c : σ) :
    (leftBy (execute p callback values (cmd,c))).1.parameters = (leftBy (setup p values cmd)).parameters := by
  unfold execute
  simp only
  cases setup p values cmd with
  | error e left => rfl
  | ok done ready =>
    simp only [leftBy_withState]
    rfl

theorem select_left (p : Platform) (values : DbValues) (types : List ValueType) (cmd : Command q) :
    leftBy (select p values types cmd) = (leftBy (execute p fillds values (cmd,Dataset.ofTypes types))).1 := by
  unfold select
  cases execute p fillds values (cmd,Dataset.ofTypes types) <;> rfl

theorem execute_holds {σ : Type} {done : Unit} (taken : setParameters values cmd = .ok done left)
    (valid : cmd.isValid = true) (given : values ≠ []) (callback : Callback σ) (c : σ) :
    Holds cmd values (leftBy (execute p callback values (cmd,c))).1 := by
  have kept := execute_parameters p callback values cmd c
  rw [setup_taken taken valid given,ParameterCount.bind_parameters] at kept
  unfold Holds
  rw [kept]
  exact (setParameters_taken taken).2

/-- A refused list leaves nothing behind exactly when its size is wrong, or every value before
the first that does not fit is the one that its slot holds. -/
theorem allOrNothing_iff (p : Platform) (cmd : Command q) (values : DbValues) :
    AllOrNothing p cmd values ↔ (values.length = cmd.parameters.length → Harmless cmd.parameters values) := by
  constructor
  · rintro laws same before d after given value rest slots rfl fits misfit
    have left := laws.refused _ _ (setParameters_stops slots fits misfit same)
    have parameters := congrArg Command.parameters left
    simp only [slots] at parameters
    exact (assignLoop_same_iff fits.length).mp (List.append_cancel_right parameters)
  · intro harmless
    refine ⟨?_,fun _ _ => setParameters_taken,?_,?_,?_,?_⟩
    · intro e left refused
      exact setParameters_harmless harmless refused
    · intro e left refused valid given σ callback c
      rw [← setParameters_harmless harmless refused] at *
      exact execute_of_rejected c (setup_refused refused valid given)
    · intro done left taken valid given σ callback c
      exact execute_holds taken valid given callback c
    · intro e left refused valid given types
      have rejected := @setup_refused q cmd values p left e refused valid given
      rw [setParameters_harmless harmless refused] at rejected
      simp only [select,execute_of_rejected (Dataset.ofTypes types) rejected]
    · intro done left taken valid given types
      rw [select_left]
      exact execute_holds taken valid given fillds _

end command

theorem names_countable : ["sum"].length < 2^31 := by norm_num

def twoParameters : Query where
  names := ["sum"]
  countable := names_countable
  paramCount := 2
  program := fun _ _ => .complete []

/-- The second value is refused when the first slot has its new one. -/
theorem setParameters_mixes : ∃ cmd left : Command twoParameters,
    ofParameters twoParameters [⟨.int,.int 1⟩,⟨.int,.int 2⟩] = .ok cmd ∧
    setParameters [⟨.int,.int 3⟩,⟨.text,.text []⟩] cmd =
      .error (DbValue.cannotAssign ⟨.int,.int 2⟩ ⟨.text,.text []⟩) left ∧
    left.parameters = [⟨.int,.int 3⟩,⟨.int,.int 2⟩] ∧
    ¬ AllOrNothing .usual cmd [⟨.int,.int 3⟩,⟨.text,.text []⟩] := by
  refine ⟨_,_,rfl,rfl,rfl,fun laws => ?_⟩
  have kept := congrArg Command.parameters (laws.refused _ _ rfl)
  exact absurd kept (by decide)

end Sl3.ParameterSetting
