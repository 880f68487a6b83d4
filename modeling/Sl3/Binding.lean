import Sl3.Statement

/-! Binding parameters: what `bind` hands to sqlite for each storage type, as pointer
and 32-bit length, and what sqlite stores for it. -/
namespace Sl3

/-- What differs between platforms: the length limit of the connection, and whether
the empty vector in a slot has a null data pointer. -/
structure Platform where
  lengthLimit : Nat
  lengthLimit_lt : lengthLimit < 2^31
  emptyBlobNull : Nat → Bool

namespace Platform

def usual : Platform where
  lengthLimit := 1000000000
  lengthLimit_lt := by norm_num
  emptyBlobNull := fun _ => true

variable (p : Platform)

def strlen (memory : Bytes) : Nat := memory.findIdx (· = 0)

/-- The loop of `sqlite3VdbeMemSetStr` for a blob of negative length: it stops at a pair
of zeros or above the limit. -/
def pairScan (nByte : Nat) : Bytes → Nat
  | a::b::memory => if nByte ≤ p.lengthLimit ∧ (a ≠ 0 ∨ b ≠ 0) then pairScan (nByte + 2) memory else nByte
  | _ => nByte

def byteCount (memory : Bytes) (n : Int) (text : Bool) : Nat :=
  if n < 0 then
    if text then strlen memory else p.pairScan 0 memory
  else n.toNat

/-- `sqlite3VdbeMemSetStr`; `none` stands for `SQLITE_TOOBIG`. -/
def memSetStr (z : Option Bytes) (n : Int) (text : Bool) : Option Cell :=
  match z with
  | none => some .null
  | some memory =>
    if p.lengthLimit < p.byteCount memory n text then none
    else if text ∨ n < 0 then some (.text (memory.take (p.byteCount memory n text)))
    else some (.blob (memory.take (p.byteCount memory n text)))

/-- `&(val.getBlob ()[0])`, the address of the first byte. -/
def firstByte (slot : Nat) (content : Bytes) : Option Bytes :=
  if content = [] ∧ p.emptyBlobNull slot then none else some content

def stored (slot : Nat) : Value → Option Cell
  | .null => some .null
  | .int n => some (.integer n)
  | .real x => some (if x.isNaN then .null else .float x)
  | .text content => p.memSetStr (some (content ++ [0])) (staticCastInt content.length) true
  | .blob content => p.memSetStr (p.firstByte slot content) (staticCastInt content.length) false

/-- More bytes than the connection takes, counted the way sqlite does. -/
def TooBig : Value → Prop
  | .text content => p.lengthLimit < p.byteCount (content ++ [0]) (staticCastInt content.length) true
  | .blob content => p.lengthLimit < p.byteCount content (staticCastInt content.length) false
  | _ => False

instance (v : Value) : Decidable (p.TooBig v) :=
  match v with
  | .text _ => inferInstanceAs (Decidable (_ < _))
  | .blob _ => inferInstanceAs (Decidable (_ < _))
  | .null => inferInstanceAs (Decidable False)
  | .int _ => inferInstanceAs (Decidable False)
  | .real _ => inferInstanceAs (Decidable False)

end Platform

namespace Value

def size : Value → Nat
  | text content => content.length
  | blob content => content.length
  | _ => 0

end Value

namespace Platform
variable {p : Platform}

theorem byteCount_of_lt {memory : Bytes} {size : Nat} (text : Bool) (small : size < 2^31) :
    p.byteCount memory (staticCastInt size) text = size := by
  rw [staticCastInt_of_lt small]
  unfold byteCount
  rw [if_neg (by omega),Int.toNat_natCast]

theorem memSetStr_none {memory : Bytes} {n : Int} {text : Bool} :
    p.memSetStr (some memory) n text = none ↔ p.lengthLimit < p.byteCount memory n text := by
  unfold memSetStr
  split_ifs <;> simp_all

theorem byteCount_nil : p.byteCount [] (staticCastInt 0) false = 0 :=
  byteCount_of_lt false (Nat.two_pow_pos 31)

theorem stored_none {slot : Nat} {v : Value} : p.stored slot v = none ↔ p.TooBig v := by
  cases v with
  | text content => rw [stored,TooBig,memSetStr_none]
  | blob content =>
    by_cases null : content = [] ∧ p.emptyBlobNull slot
    · obtain ⟨rfl,null⟩ := null
      simp [stored,firstByte,null,memSetStr,TooBig,byteCount_nil]
    · rw [stored,firstByte,if_neg null,TooBig,memSetStr_none]
  | _ => simp [stored,TooBig]

theorem memSetStr_size {memory : Bytes} {n : Int} {text : Bool} {cell : Cell}
    (set : p.memSetStr (some memory) n text = some cell) : cell.value.size < 2^31 := by
  have limit := p.lengthLimit_lt
  simp only [memSetStr] at set
  split_ifs at set <;>
  · cases set
    simp only [Cell.value,Value.size,List.length_take]
    omega

theorem stored_size {slot : Nat} {v : Value} {cell : Cell} (set : p.stored slot v = some cell) :
    cell.value.size < 2^31 := by
  cases v with
  | null => cases set; exact Nat.two_pow_pos 31
  | int n => cases set; exact Nat.two_pow_pos 31
  | real x =>
    cases set
    split_ifs <;> exact Nat.two_pow_pos 31
  | text content =>
    rw [stored] at set
    exact memSetStr_size set
  | blob content =>
    by_cases null : content = [] ∧ p.emptyBlobNull slot
    · rw [stored,firstByte,if_pos null] at set
      cases set
      exact Nat.two_pow_pos 31
    · rw [stored,firstByte,if_neg null] at set
      exact memSetStr_size set

theorem stored_value {slot : Nat} {v : Value} {cell : Cell} (set : p.stored slot v = some cell)
    (nonNaN : v.NonNaN) (nonempty : v ≠ .blob []) (small : v.size < 2^31) : cell.value = v := by
  cases v with
  | null => cases set; rfl
  | int n => cases set; rfl
  | real x =>
    have number : x.isNaN = false := nonNaN
    cases set
    simp [number,Cell.value]
  | text content =>
    have count : p.byteCount (content ++ [0]) (staticCastInt content.length) true = content.length :=
      byteCount_of_lt true small
    simp only [stored,memSetStr,count,true_or,if_true] at set
    split_ifs at set
    cases set
    simp [Cell.value]
  | blob content =>
    have filled : content ≠ [] := fun empty => nonempty (by rw [empty])
    have count : p.byteCount content (staticCastInt content.length) false = content.length :=
      byteCount_of_lt false small
    have positive : ¬ staticCastInt content.length < 0 := by
      have cast := staticCastInt_of_lt small
      simp only [Value.size] at cast
      omega
    simp only [stored,firstByte,filled,false_and,if_false,memSetStr,count,positive,reduceCtorEq,or_self] at set
    split_ifs at set
    cases set
    simp [Cell.value]

def accepted (p : Platform) (values : List Value) : List Value := values.takeWhile fun v => ¬ p.TooBig v

def storedAll (p : Platform) : Nat → List Value → Option (List Cell)
  | _,[] => some []
  | slot,v::values =>
    match p.stored (slot + 1) v,storedAll p (slot + 1) values with
    | some cell,some cells => some (cell::cells)
    | _,_ => none

theorem storedAll_none {slot : Nat} {values : List Value} :
    p.storedAll slot values = none ↔ ∃ v ∈ values, p.TooBig v := by
  induction values generalizing slot with
  | nil => simp [storedAll]
  | cons v values ih =>
    have head : p.stored (slot + 1) v = none ↔ p.TooBig v := stored_none
    have tail := @ih (slot + 1)
    simp only [List.exists_mem_cons_iff,← head,← tail,storedAll]
    cases p.stored (slot + 1) v <;> cases p.storedAll (slot + 1) values <;> simp

/-- All values come back as they were exactly when no content is longer than an `int`
can say; empty blobs are looked at elsewhere. -/
theorem storedAll_values {slot : Nat} {values : List Value} {cells : List Cell}
    (set : p.storedAll slot values = some cells) (nonNaN : ∀ v ∈ values, v.NonNaN)
    (nonempty : .blob [] ∉ values) :
    cells.map Cell.value = values ↔ ∀ v ∈ values, v.size < 2^31 := by
  induction values generalizing slot cells with
  | nil =>
    cases set
    simp
  | cons v values ih =>
    simp only [storedAll] at set
    split at set
    · rename_i cell rest first tail
      cases set
      have others := ih tail (fun w member => nonNaN w (by simp [member]))
        (fun member => nonempty (by simp [member]))
      rw [List.map_cons,List.cons.injEq,others,List.forall_mem_cons]
      refine and_congr_left fun _ => ⟨?_,?_⟩
      · intro same
        rw [← same]
        exact stored_size first
      · exact stored_value first (nonNaN v (by simp)) fun empty => nonempty (by simp [empty])
    · simp at set

end Platform

namespace Stmt
variable {q : Query}

/-- `bindText` of sqlite: the slot is unbound first. -/
def bindText (p : Platform) (index : Nat) (z : Option Bytes) (n : Int) (text : Bool) (s : Stmt q) :
    Int × Stmt q :=
  match s.bind index .null with
  | (rc,unbound) =>
    if rc ≠ sqliteOk then (rc,unbound)
    else
      match p.memSetStr z n text with
      | none => (sqliteTooBig,unbound)
      | some cell => s.bind index cell

/-- `val.getBlob ()[0]`: an empty blob has no such byte. -/
def indexed (content : Bytes) (s : Stmt q) : Stmt q :=
  {s with outside := s.outside || content.isEmpty}

def bindParameter (p : Platform) (curParaNr : Nat) (val : Value) (s : Stmt q) : Int × Stmt q :=
  match val with
  | .int n => s.bind curParaNr (.integer n)
  | .real x => s.bind curParaNr (if x.isNaN then .null else .float x)
  | .text content =>
    s.bindText p curParaNr (some (content ++ [0])) (staticCastInt content.length) true
  | .blob content =>
    (s.indexed content).bindText p curParaNr (p.firstByte curParaNr content)
      (staticCastInt content.length) false
  | .null => s.bind curParaNr .null

def bindLoop (p : Platform) (curParaNr : Nat) : DbValues → Method (Stmt q) Unit
  | [] => fun s => .ok () s
  | val::parameters => fun s =>
    match bindParameter p (curParaNr + 1) val.value s with
    | (rc,s) =>
      if rc ≠ sqliteOk then .error (sqlite3Error rc "") s
      else bindLoop p (curParaNr + 1) parameters s

variable {p : Platform} {s : Stmt q}

def SameRun (s t : Stmt q) : Prop := s.cursor = t.cursor ∧ s.started = t.started

def noting (v : Value) (s : Stmt q) : Stmt q := {s with outside := s.outside || decide (v = .blob [])}

theorem noting_text (content : Bytes) : s.noting (.text content) = s := by simp [noting]

theorem indexed_eq (content : Bytes) : s.indexed content = s.noting (.blob content) := by
  cases content <;> simp [indexed,noting]

theorem bind_ready {slot : Nat} (ready : s.cursor = .ready) (inside : slot < q.paramCount) (cell : Cell) :
    s.bind (slot + 1) cell = (sqliteOk,s.put slot cell) := by
  have index : 0 < slot + 1 ∧ slot + 1 ≤ q.paramCount := by omega
  simp [bind,ready,index]

def boundAs (slot : Nat) (s : Stmt q) : Option Cell → Int × Stmt q
  | some cell => (sqliteOk,s.put slot cell)
  | none => (sqliteTooBig,s.put slot .null)

theorem bindText_ready {slot : Nat} (ready : s.cursor = .ready) (inside : slot < q.paramCount)
    (z : Option Bytes) (n : Int) (text : Bool) :
    s.bindText p (slot + 1) z n text = s.boundAs slot (p.memSetStr z n text) := by
  simp only [bindText,bind_ready ready inside]
  cases p.memSetStr z n text <;> simp [boundAs]

theorem bindParameter_ready {slot : Nat} (ready : s.cursor = .ready) (inside : slot < q.paramCount)
    (v : Value) : s.bindParameter p (slot + 1) v =
      (s.noting v).boundAs slot (p.stored (slot + 1) v) := by
  cases v with
  | text content =>
    simp only [bindParameter,noting_text,bindText_ready ready inside,Platform.stored]
  | blob content =>
    have still : (s.noting (.blob content)).cursor = .ready := ready
    simp only [bindParameter,indexed_eq,bindText_ready still inside,Platform.stored]
  | null => simp [bindParameter,bind_ready ready inside,Platform.stored,noting,boundAs]
  | int n => simp [bindParameter,bind_ready ready inside,Platform.stored,noting,boundAs]
  | real x => simp [bindParameter,bind_ready ready inside,Platform.stored,noting,boundAs]

theorem bind_busy (busy : s.cursor ≠ .ready) (index : Nat) (cell : Cell) :
    s.bind index cell = (sqliteMisuse,s) := by
  unfold bind
  cases cursor : s.cursor with
  | ready => exact absurd cursor busy
  | _ => rfl

theorem bindText_busy (busy : s.cursor ≠ .ready) (index : Nat) (z : Option Bytes) (n : Int) (text : Bool) :
    s.bindText p index z n text = (sqliteMisuse,s) := by
  simp only [bindText,bind_busy busy]
  rw [if_pos (by decide)]

theorem bindParameter_busy (busy : s.cursor ≠ .ready) (index : Nat) (v : Value) :
    s.bindParameter p index v = (sqliteMisuse,s.noting v) := by
  cases v with
  | text content =>
    simp only [bindParameter,bindText_busy busy,noting_text]
  | blob content =>
    have still : (s.noting (.blob content)).cursor ≠ .ready := busy
    simp only [bindParameter,indexed_eq,bindText_busy still]
  | null => simp [bindParameter,bind_busy busy,noting]
  | int n => simp [bindParameter,bind_busy busy,noting]
  | real x => simp [bindParameter,bind_busy busy,noting]

/-- Bound from an idle statement, the parameters from slot `cur` on are all stored, or
the first that is too big is reported; the run has not begun. -/
theorem bindLoop_ready {cur : Nat} {params : DbValues} (ready : s.cursor = .ready)
    (slots : cur + params.length = q.paramCount) :
    ∃ t : Stmt q, t.cursor = .ready ∧ t.started = s.started ∧
      t.outside = (s.outside || decide (.blob [] ∈ p.accepted params.values)) ∧
      match p.storedAll cur params.values with
      | some cells => s.bindLoop p cur params = .ok () t ∧ t.bindings.val = s.bindings.val.take cur ++ cells
      | none => s.bindLoop p cur params = .error (sqlite3Error sqliteTooBig "") t := by
  induction params generalizing cur s with
  | nil =>
    refine ⟨s,ready,rfl,by simp [DbValues.values,Platform.accepted],rfl,?_⟩
    have size := s.bindings.property
    simp only [List.length_nil] at slots
    simp [← slots, size]
  | cons val params ih =>
    have inside : cur < q.paramCount := by
      rw [← slots,List.length_cons]
      omega
    have rest : cur + 1 + params.length = q.paramCount := by
      rw [← slots,List.length_cons]
      omega
    have bound : cur < s.bindings.val.length := by
      rw [s.bindings.property]
      exact inside
    simp only [bindLoop,bindParameter_ready ready inside,DbValues.values,List.map_cons,Platform.storedAll,
      Platform.accepted]
    cases store : p.stored (cur + 1) val.value with
    | none =>
      have big := Platform.stored_none.mp store
      have filled : val.value ≠ .blob [] := by
        intro empty
        rw [empty,Platform.TooBig,List.length_nil,Platform.byteCount_nil] at big
        omega
      refine ⟨(s.noting val.value).put cur .null,ready,rfl,?_,rfl⟩
      simp [put,noting,big,filled]
    | some cell =>
      have small : ¬ p.TooBig val.value := by
        rw [← @Platform.stored_none p (cur + 1),store]
        simp
      obtain ⟨t,still,started,outside,result⟩ := @ih ((s.noting val.value).put cur cell) (cur + 1) ready rest
      refine ⟨t,still,started,?_,?_⟩
      · rw [outside]
        simp [put,noting,small,Platform.accepted,DbValues.values,Bool.or_assoc,eq_comm]
      · simp only [boundAs,DbValues.values] at result ⊢
        cases cells : p.storedAll (cur + 1) (params.map DbValue.value) with
        | none => simpa [cells] using result
        | some cells' =>
          rw [cells] at result
          refine ⟨by simpa using result.1,?_⟩
          rw [result.2]
          simp [put,noting,List.take_add_one,List.take_set,bound,List.set_eq_of_length_le]

theorem bindLoop_busy (busy : s.cursor ≠ .ready) (cur : Nat) (val : DbValue) (params : DbValues) :
    s.bindLoop p cur (val::params) = .error (sqlite3Error sqliteMisuse "") (s.noting val.value) := by
  simp only [bindLoop,bindParameter_busy busy]
  rw [if_pos (by decide)]

theorem bind_keeps (index : Nat) (cell : Cell) : (s.bind index cell).2.SameRun s := by
  unfold bind
  cases s.cursor with
  | ready => split_ifs <;> exact ⟨rfl,rfl⟩
  | _ => exact ⟨rfl,rfl⟩

theorem bindText_keeps (index : Nat) (z : Option Bytes) (n : Int) (text : Bool) :
    (s.bindText p index z n text).2.SameRun s := by
  have unbound := @bind_keeps q s index .null
  simp only [bindText]
  split_ifs
  · exact unbound
  · cases p.memSetStr z n text with
    | none => exact unbound
    | some cell => exact bind_keeps index cell

theorem bindParameter_keeps (index : Nat) (v : Value) : (s.bindParameter p index v).2.SameRun s := by
  cases v with
  | blob content =>
    rw [bindParameter]
    exact @bindText_keeps q p (s.indexed content) index (p.firstByte index content)
      (staticCastInt content.length) false
  | text content =>
    rw [bindParameter]
    exact bindText_keeps index (some (content ++ [0])) (staticCastInt content.length) true
  | _ => exact bind_keeps index _

theorem bindLoop_keeps (cur : Nat) (params : DbValues) :
    (leftBy (s.bindLoop p cur params)).SameRun s := by
  induction params generalizing s cur with
  | nil => exact ⟨rfl,rfl⟩
  | cons val params ih =>
    have first := @bindParameter_keeps q p s (cur + 1) val.value
    simp only [bindLoop]
    split_ifs
    · exact first
    · have rest := @ih (s.bindParameter p (cur + 1) val.value).2 (cur + 1)
      exact ⟨rest.1.trans first.1,rest.2.trans first.2⟩

end Stmt
end Sl3
