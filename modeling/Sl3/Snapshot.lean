import Sl3.ParameterCount
import Sl3.Library.PartialMap

/-! What the steps of a run see of the parameters. Text and Blob are bound with
SQLITE_STATIC, as a place in the memory of the Command, so that this memory is modelled:
the `DbValue` objects by address, and the lists that own them. -/
namespace Sl3.Snapshot
open Library Library.Machine Library.PartialMap Command

abbrev Address := Nat

abbrev Slots := Address → Option DbValue

/-- What sqlite keeps of a bound parameter: a copy, or the place and size of bytes it does not own. -/
inductive Binding where
  | copied (cell : Cell)
  | static (address : Address) (text : Bool) (size : Nat)

namespace Binding

/-- Bytes are kept by their place, everything else and no bytes at all by value. -/
def ofCell (address : Address) : Cell → Binding
  | .text (b::bytes) => static address true (b::bytes).length
  | .blob (b::bytes) => static address false (b::bytes).length
  | cell => copied cell

def bytes (text : Bool) (content : Bytes) : Cell := if text then .text content else .blob content

/-- The bytes in memory that a pointer to the content leads to. -/
def memory : Value → Option Bytes
  | .text content => some (content ++ [0])
  | .blob content => some content
  | _ => none

/-- What is read for the parameter now; `none` stands for memory that is no longer there. -/
def behind (slots : Slots) : Binding → Option Cell
  | copied cell => some cell
  | static address text size =>
    match (slots address).bind fun d => memory d.value with
    | some memory => if size ≤ memory.length then some (bytes text (memory.take size)) else none
    | none => none

def addresses : Binding → List Address
  | copied _ => []
  | static address _ _ => [address]

end Binding

/-- A Command with the lists that a program holds besides it, the run that is in progress and
the ones it is nested in, and what each step has seen beside what its run was bound to. -/
structure State where
  slots : Slots
  next : Address
  parameters : List Address
  rows : List (List Address)
  bindings : List Binding
  busy : Bool
  runs : List (List Cell)
  seen : List (List (Option Cell) × List Cell)

inductive Call where
  | onParameter (idx : Nat) (method : Method DbValue Unit)
  | setParameters (values : DbValues)
  | resetParameters (values : DbValues)
  | copyAssign (row : Nat)
  | moveAssign (row : Nat)
  | swap (row : Nat)
  | moveOut
  | moveInto (row : Nat)
  | moveSelf
  | hold (values : DbValues)
  | onHeld (row idx : Nat) (method : Method DbValue Unit)
  | drop (row : Nat)
  | execute (p : Platform) (values : DbValues)
  | stepStatement
  | finish

namespace State
variable (s : State)

def contents (row : List Address) : DbValues := row.map fun a => (s.slots a).getD (DbValue.ofType .variant)

def row (k : Nat) : List Address := s.rows.getD k []

def fresh (values : DbValues) : List Address := List.range' s.next values.length

def called (row : List Address) (idx : Nat) (method : Method DbValue Unit) : List (Address × Option DbValue) :=
  row[idx]?.toList.map fun a => (a,(s.slots a).map fun d => leftBy (method d))

def destroyed (row : List Address) : List (Address × Option DbValue) := row.map fun a => (a,none)

def stored (row : List Address) (values : DbValues) : List (Address × Option DbValue) := row.zip (values.map some)

def assigned (values : DbValues) : List (Address × Option DbValue) :=
  if values.length ≠ s.parameters.length then []
  else stored s.parameters (assignSlots (s.contents s.parameters) values).2

/-- Whether `DbValues::operator= (DbValues&&)` takes the source. -/
def takes (target source : List Address) : Bool :=
  match DbValues.moveAssign (s.contents target,s.contents source) with
  | .ok _ _ => true
  | .error _ _ => false

/-- The `DbValue` objects that a call writes to, creates or destroys. -/
def writes : Call → List (Address × Option DbValue)
  | .onParameter idx method => s.called s.parameters idx method
  | .setParameters values => s.assigned values
  | .resetParameters values =>
    if values.length = s.parameters.length then stored (s.fresh values) values ++ destroyed s.parameters else []
  | .copyAssign row =>
    stored s.parameters (leftBy (DbValues.copyAssign (s.contents (s.row row)) (s.contents s.parameters)))
  | .moveAssign row => if s.takes s.parameters (s.row row) then destroyed s.parameters else []
  | .moveInto row => if s.takes (s.row row) s.parameters then destroyed (s.row row) else []
  | .moveSelf => destroyed s.parameters
  | .hold values => stored (s.fresh values) values
  | .onHeld row idx method => s.called (s.row row) idx method
  | .drop row => destroyed (s.row row)
  | .execute _ values => if values.length > 0 then s.assigned values else []
  | .swap _ | .moveOut | .stepStatement | .finish => []

/-- What a call does to the objects and to the lists that own them. -/
def edited (c : Call) : State :=
  let t : State := {s with slots := writeAll s.slots (s.writes c)}
  match c with
  | .resetParameters values =>
    if values.length = s.parameters.length then
      {t with parameters := s.fresh values,next := s.next + values.length}
    else t
  | .moveAssign row =>
    if s.takes s.parameters (s.row row) then {t with parameters := s.row row,rows := s.rows.set row []} else t
  | .swap row => {t with parameters := s.row row,rows := s.rows.set row s.parameters}
  | .moveOut => {t with parameters := [],rows := s.rows ++ [s.parameters]}
  | .moveInto row =>
    if s.takes (s.row row) s.parameters then {t with parameters := [],rows := s.rows.set row s.parameters} else t
  | .moveSelf => {t with parameters := []}
  | .hold values => {t with rows := s.rows ++ [s.fresh values],next := s.next + values.length}
  | .drop row => {t with rows := s.rows.set row []}
  | _ => t

/-- `bind` over the list, from slot `cur` on: whether it came to the end, and what is bound then. -/
def bindLoop (p : Platform) (slots : Slots) (cur : Nat) : List Address → List Binding → Bool × List Binding
  | [],bindings => (true,bindings)
  | a::row,bindings =>
    if cur < bindings.length then
      match p.stored (cur + 1) ((slots a).getD (DbValue.ofType .variant)).value with
      | none => (false,bindings.set cur (.copied .null))
      | some cell => bindLoop p slots (cur + 1) row (bindings.set cur (.ofCell a cell))
    else (false,bindings)

/-- `sqlite3_step`, with what it sees of the parameters. -/
def look : State :=
  {s with busy := true,seen := s.seen ++ [(s.bindings.map (Binding.behind s.slots),s.runs.headD [])]}

/-- Whether `setParameters` returns. -/
def assigns (values : DbValues) : Bool :=
  values.length = s.parameters.length && (assignSlots (s.contents s.parameters) values).1.toBool

/-- Binding and the first step; what is bound already of a statement between two rows stays. -/
def begun (p : Platform) : State :=
  if s.parameters = [] then look {s with runs := []::s.runs}
  else if s.busy then s
  else
    match bindLoop p s.slots 0 s.parameters s.bindings with
    | (false,bindings) => {s with bindings}
    | (true,bindings) =>
      look {s with bindings,runs := ((p.storedAll 0 (s.contents s.parameters).values).getD [])::s.runs}

/-- A list that the call names exists, and the statement is stepped and reset inside of a run only. -/
def enabled : Call → Bool
  | .copyAssign row | .moveAssign row | .swap row | .moveInto row | .onHeld row _ _ | .drop row => row < s.rows.length
  | .stepStatement | .finish => s.runs.length > 0
  | _ => true

def step (c : Call) : Option State :=
  if s.enabled c then
    match c with
    | .execute p values =>
      if values.length > 0 ∧ s.assigns values = false then some (s.edited c) else some ((s.edited c).begun p)
    | .stepStatement => some s.look
    | .finish => some {s with runs := s.runs.tail,busy := false}
    | c => some (s.edited c)
  else none

/-- The Command with these parameters, not run yet. -/
def created (paramCount : Nat) (parameters : DbValues) : State where
  slots := fun a => parameters[a]?
  next := parameters.length
  parameters := List.range parameters.length
  rows := []
  bindings := List.replicate paramCount (.copied .null)
  busy := false
  runs := []
  seen := []

/-- The objects whose bytes the run in progress reads. -/
def pinned : List Address := (s.bindings.take (s.runs.headD []).length).flatMap Binding.addresses

/-- Called on such an object, the method throws. -/
def Refuses (row : List Address) (idx : Nat) (method : Method DbValue Unit) : Prop :=
  ∀ a d, row[idx]? = some a → a ∈ s.pinned → s.slots a = some d → ∃ e left, method d = .error e left

end State

open Binding State

/-- No call assigns another value to an object whose bytes the run in progress reads, or destroys it: what is called on
such an object throws and leaves it, since what returns may have moved an equal value in, with other memory, where the
lists copy theirs in place. A call of `execute` inside of a run that has bound parameters finds the Command with its slots. -/
def Spares (s : State) (c : Call) : Prop :=
  (∀ write ∈ s.writes c, write.1 ∈ s.pinned → write.2 = s.slots write.1) ∧
    match c with
    | .execute _ _ => s.parameters ≠ [] ∨ ∀ run ∈ s.runs, run = []
    | .onParameter idx method => s.Refuses s.parameters idx method
    | .onHeld row idx method => s.Refuses (s.row row) idx method
    | _ => True

/-- What the bound parameters of the innermost run read as is what they were bound to. -/
def Bound (s : State) (run : List Cell) : Prop :=
  (s.bindings.take run.length).map (behind s.slots) = run.map some

/-- Only the innermost run has bound parameters, and sqlite lets none bind beside it. -/
structure Sound (s : State) : Prop where
  outer : ∀ run ∈ s.runs.tail, run = []
  inner : ∀ run, s.runs.head? = some run → run ≠ [] → s.busy = true ∧ Bound s run
  seen : ∀ entry ∈ s.seen, entry.1.take entry.2.length = entry.2.map some

section sound
variable {s t : State} {c : Call} {p : Platform} {slots : Slots}

theorem behind_kept {slots' : Slots} {b : Binding} (same : ∀ a ∈ b.addresses, slots' a = slots a) :
    behind slots' b = behind slots b := by
  cases b with
  | copied cell => rfl
  | static address text size =>
    have here : slots' address = slots address := same address List.mem_cons_self
    simp only [behind,here]

theorem edited_slots (c : Call) : (s.edited c).slots = writeAll s.slots (s.writes c) := by
  unfold State.edited
  cases c <;> dsimp only <;> first | rfl | (split_ifs <;> rfl)

theorem edited_rest (c : Call) : (s.edited c).bindings = s.bindings ∧ (s.edited c).busy = s.busy ∧
    (s.edited c).runs = s.runs ∧ (s.edited c).seen = s.seen := by
  unfold State.edited
  cases c <;> dsimp only <;> first | exact ⟨rfl,rfl,rfl,rfl⟩ | (split_ifs <;> exact ⟨rfl,rfl,rfl,rfl⟩)

theorem Sound.edited (sound : Sound s) (spares : Spares s c) : Sound (s.edited c) := by
  obtain ⟨bindings,busy,runs,seen⟩ := @edited_rest s c
  refine ⟨by rw [runs]; exact sound.outer,?_,by rw [seen]; exact sound.seen⟩
  intro run head some
  rw [runs] at head
  obtain ⟨stepped,bound⟩ := sound.inner run head some
  refine ⟨busy.trans stepped,?_⟩
  unfold Bound at bound ⊢
  rw [← bound,bindings,edited_slots]
  apply List.map_congr_left
  intro b member
  apply behind_kept
  intro a address
  apply writeAll_kept
  intro write written here
  subst here
  have first : s.runs.headD [] = run := by simp [List.headD_eq_head?_getD,head]
  apply spares.1 write written
  rw [State.pinned,first]
  exact List.mem_flatMap.mpr ⟨b,member,address⟩

theorem memSetStr_prefix {memory : Bytes} {n : Int} {text : Bool} {cell : Cell}
    (set : p.memSetStr (some memory) n text = some cell) :
    ∃ bytes, bytes <+: memory ∧ (cell = .text bytes ∨ cell = .blob bytes) := by
  simp only [Platform.memSetStr] at set
  split_ifs at set
  · cases set
    exact ⟨_,List.take_prefix _ _,.inl rfl⟩
  · cases set
    exact ⟨_,List.take_prefix _ _,.inr rfl⟩

theorem ofCell_bytes {a : Address} {memory bytes : Bytes} {cell : Cell}
    (here : ((slots a).bind fun d => Binding.memory d.value) = some memory) (front : bytes <+: memory)
    (kind : cell = .text bytes ∨ cell = .blob bytes) : behind slots (ofCell a cell) = some cell := by
  have size : bytes.length ≤ memory.length := front.length_le
  have same : memory.take bytes.length = bytes := (List.prefix_iff_eq_take.mp front).symm
  cases bytes with
  | nil => rcases kind with rfl | rfl <;> rfl
  | cons b bytes =>
    rcases kind with rfl | rfl
    · simp only [ofCell,behind,here,size,if_true,same,Binding.bytes]
    · simp only [ofCell,behind,here,size,if_true,same,Binding.bytes,Bool.false_eq_true,if_false]

theorem ofCell_behind {slot : Nat} {a : Address} {cell : Cell}
    (stored : p.stored slot ((slots a).getD (DbValue.ofType .variant)).value = some cell) :
    behind slots (ofCell a cell) = some cell := by
  cases here : slots a with
  | none =>
    rw [here] at stored
    cases stored
    rfl
  | some d =>
    rw [here,Option.getD_some] at stored
    cases value : d.value with
    | null | int =>
      rw [value] at stored
      cases stored
      rfl
    | real x =>
      rw [value] at stored
      cases stored
      split_ifs <;> rfl
    | text content =>
      rw [value,Platform.stored] at stored
      obtain ⟨bytes,front,kind⟩ := memSetStr_prefix stored
      exact ofCell_bytes (by simp [here,value,Binding.memory]) front kind
    | blob content =>
      rw [value,Platform.stored,Platform.firstByte] at stored
      split_ifs at stored
      · cases stored
        rfl
      · obtain ⟨bytes,front,kind⟩ := memSetStr_prefix stored
        exact ofCell_bytes (by simp [here,value,Binding.memory]) front kind

theorem bindLoop_bound {cur : Nat} {row : List Address} {bindings after : List Binding}
    (looped : bindLoop p s.slots cur row bindings = (true,after)) :
    after.take cur = bindings.take cur ∧ ∃ cells, p.storedAll cur (s.contents row).values = some cells ∧
      ((after.drop cur).take cells.length).map (behind s.slots) = cells.map some := by
  induction row generalizing cur bindings with
  | nil =>
    cases looped
    exact ⟨rfl,[],rfl,rfl⟩
  | cons a row ih =>
    by_cases inside : cur < bindings.length
    · rw [bindLoop,if_pos inside] at looped
      cases stored : p.stored (cur + 1) ((s.slots a).getD (DbValue.ofType .variant)).value with
      | none => simp [stored] at looped
      | some cell =>
        simp only [stored] at looped
        obtain ⟨front,cells,all,read⟩ := ih looped
        have here : after[cur]? = some (ofCell a cell) := by
          have taken := congrArg (fun bindings => bindings[cur]?) front
          simpa [List.getElem?_take,inside] using taken
        obtain ⟨bound,last⟩ := List.getElem?_eq_some_iff.mp here
        refine ⟨?_,cell::cells,?_,?_⟩
        · have shorter := congrArg (List.take cur) front
          simpa [List.take_take,List.take_set,List.set_eq_of_length_le] using shorter
        · simp only [State.contents,DbValues.values] at all
          simp only [State.contents,DbValues.values,List.map_cons,Platform.storedAll,stored,all]
        · rw [List.drop_eq_getElem_cons bound,last,List.length_cons,List.take_succ_cons,List.map_cons,List.map_cons,
            ofCell_behind stored,read]
    · rw [bindLoop,if_neg inside] at looped
      cases looped

theorem look_sound (outer : ∀ run ∈ s.runs.tail, run = [])
    (inner : ∀ run, s.runs.head? = some run → run ≠ [] → Bound s run)
    (seen : ∀ entry ∈ s.seen, entry.1.take entry.2.length = entry.2.map some) : Sound s.look := by
  refine ⟨outer,fun run head some => ⟨rfl,inner run head some⟩,?_⟩
  intro entry member
  rcases List.mem_append.mp member with old | last
  · exact seen entry old
  · cases List.mem_singleton.mp last
    cases head : s.runs.head? with
    | none => simp [List.headD_eq_head?_getD,head]
    | some run =>
      by_cases none : run = []
      · simp [List.headD_eq_head?_getD,head,none]
      · have bound := inner run head none
        simpa [List.headD_eq_head?_getD,head,Bound,List.map_take] using bound

theorem Sound.begun (sound : Sound s) (guarded : s.parameters ≠ [] ∨ ∀ run ∈ s.runs, run = []) : Sound (s.begun p) := by
  unfold State.begun
  split_ifs with none busy
  · -- nothing to bind: no run around this one has bound anything
    have empty := guarded.resolve_left (not_not.mpr none)
    refine look_sound empty ?_ sound.seen
    intro run head some
    cases head
    exact absurd rfl some
  · exact sound
  · have empty : ∀ run ∈ s.runs, run = [] := by
      intro run member
      by_contra some
      cases runs : s.runs with
      | nil => simp [runs] at member
      | cons first rest =>
        have outer := sound.outer
        rw [runs] at member outer
        rcases List.mem_cons.mp member with rfl | later
        · exact busy (sound.inner _ (by rw [runs]; rfl) some).1
        · exact some (outer run later)
    cases looped : bindLoop p s.slots 0 s.parameters s.bindings with
    | mk done bindings =>
      cases done with
      | false =>
        refine ⟨sound.outer,?_,sound.seen⟩
        intro run head some
        exact absurd (empty run (List.mem_of_mem_head? head)) some
      | true =>
        obtain ⟨_,cells,all,read⟩ := bindLoop_bound looped
        simp only [all,Option.getD_some]
        refine look_sound empty ?_ sound.seen
        intro run head _
        cases head
        simpa [Bound] using read

theorem Sound.step (sound : Sound s) (spares : Spares s c) (stepped : s.step c = some t) : Sound t := by
  have changed := sound.edited spares
  unfold State.step at stepped
  split_ifs at stepped with enabled
  cases c with
  | execute p values =>
    obtain ⟨_,_,runs,_⟩ := @edited_rest s (.execute p values)
    have parameters : (s.edited (.execute p values)).parameters = s.parameters := rfl
    dsimp only at stepped
    split_ifs at stepped
    · cases stepped
      exact changed
    · cases stepped
      apply changed.begun
      rw [runs,parameters]
      exact spares.2
  | stepStatement =>
    cases stepped
    exact look_sound sound.outer (fun run head some => (sound.inner run head some).2) sound.seen
  | finish =>
    cases stepped
    refine ⟨fun run member => sound.outer run (List.mem_of_mem_tail member),?_,sound.seen⟩
    intro run head some
    exact absurd (sound.outer run (List.mem_of_mem_head? head)) some
  | _ =>
    cases stepped
    exact changed

theorem bindLoop_ends {cur : Nat} {row : List Address} {bindings : List Binding} {cells : List Cell}
    (slots : cur + row.length ≤ bindings.length) (all : p.storedAll cur (s.contents row).values = some cells) :
    (bindLoop p s.slots cur row bindings).1 = true := by
  induction row generalizing cur bindings cells with
  | nil => rfl
  | cons a row ih =>
    simp only [State.contents,DbValues.values,List.map_cons,Platform.storedAll,List.length_cons] at all slots
    rw [bindLoop,if_pos (by omega)]
    cases stored : p.stored (cur + 1) ((s.slots a).getD (DbValue.ofType .variant)).value with
    | none => simp [stored] at all
    | some cell =>
      simp only [stored] at all
      cases rest : p.storedAll (cur + 1) ((row.map fun a => (s.slots a).getD (DbValue.ofType .variant)).map DbValue.value) with
      | none =>
        rw [rest] at all
        cases all
      | some cells => exact ih (by rw [List.length_set]; omega) rest

/-- What a run counts as bound is what the Command has bound, had it no addresses. -/
theorem begun_runs {q : Query} {cmd ready : Command q} (same : cmd.parameters = s.contents s.parameters)
    (count : ParameterCount.Counted cmd) (sized : s.bindings.length = q.paramCount) (filled : s.parameters ≠ [])
    (idle : s.busy = false) (bound : Command.bind p cmd = .ok () ready) :
    (s.begun p).runs = ready.stmt.bindings.val::s.runs := by
  have kept := ParameterCount.bind_parameters p cmd
  have all := ParameterCount.bind_all count bound
  rw [bound] at kept
  rw [show ready.parameters = s.contents s.parameters from kept.trans same] at all
  have slots : 0 + s.parameters.length ≤ s.bindings.length := by
    have size := congrArg List.length same
    rw [State.contents,List.length_map] at size
    rw [sized,← count,size,Nat.zero_add]
  have ends := bindLoop_ends slots all
  unfold State.begun
  rw [if_neg filled,idle]
  cases looped : bindLoop p s.slots 0 s.parameters s.bindings with
  | mk done bindings =>
    rw [looped] at ends
    cases ends
    simp [State.look,all]

end sound

def twoParameters : State := created 2 [⟨.variant,.int 1⟩,⟨.text,.text [97]⟩]

end Sl3.Snapshot
