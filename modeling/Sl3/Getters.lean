import Sl3.DbValueObjects
import Sl3.Reading

/-! The getters of `DbValue`, with defaults and without, on values that a program has made and on those
that were taken from a column. -/
namespace Sl3
open DbValueObjects

/-- A storage type that getters ask for; whatever has it can be read. -/
structure Payload (α : Type) where
  kind : ValueType
  read : Value → Except Error α
  reads : ∀ v, v.getType = kind → ∃ a, read v = .ok a
  refuses : ∀ v, v.getType ≠ kind → v.getType ≠ .null → ∃ e, read v = .error e
  stored : kind ≠ .null ∧ kind ≠ .variant

namespace Payload

def int : Payload Int64 where
  kind := .int
  read := Value.int64
  reads v own := by cases v <;> cases own; exact ⟨_,rfl⟩
  refuses v other some := by cases v <;> first | exact ⟨_,rfl⟩ | exact absurd rfl other
  stored := by decide

def real : Payload Double where
  kind := .real
  read := Value.getReal
  reads v own := by cases v <;> cases own; exact ⟨_,rfl⟩
  refuses v other some := by cases v <;> first | exact ⟨_,rfl⟩ | exact absurd rfl other
  stored := by decide

def text : Payload Bytes where
  kind := .text
  read := Value.getText
  reads v own := by cases v <;> cases own; exact ⟨_,rfl⟩
  refuses v other some := by cases v <;> first | exact ⟨_,rfl⟩ | exact absurd rfl other
  stored := by decide

def blob : Payload Bytes where
  kind := .blob
  read := Value.getBlob
  reads v own := by cases v <;> cases own; exact ⟨_,rfl⟩
  refuses v other some := by cases v <;> first | exact ⟨_,rfl⟩ | exact absurd rfl other
  stored := by decide

end Payload

namespace DbValue
variable {α : Type}

def getInt (d : DbValue) : Except Error Int64 := d.value.int64
def getReal (d : DbValue) : Except Error Double := d.value.getReal
def getText (d : DbValue) : Except Error Bytes := d.value.getText
def getBlob (d : DbValue) : Except Error Bytes := d.value.getBlob

/-- The getters that take a default for Null only. -/
def readOr (payload : Payload α) (d : DbValue) (defval : α) : Except Error α :=
  if d.isNull then .ok defval else payload.read d.value

def getIntOr (d : DbValue) (defval : Int64) : Except Error Int64 := d.readOr .int defval
def getRealOr (d : DbValue) (defval : Double) : Except Error Double := d.readOr .real defval
def getTextOr (d : DbValue) (defval : Bytes) : Except Error Bytes := d.readOr .text defval
def getBlobOr (d : DbValue) (defval : Bytes) : Except Error Bytes := d.readOr .blob defval

/-- The overloads of `get`, which take the default for every other storage type. -/
def getAs (payload : Payload α) (d : DbValue) (defval : α) : Except Error α :=
  if d.type ≠ payload.kind then .ok defval else payload.read d.value

def get64 (d : DbValue) (defval : Int64) : Except Error Int64 := d.getAs .int defval
def get32 (d : DbValue) (defval : Int32) : Except Error Int64 := d.getAs .int defval.toInt64
def getDouble (d : DbValue) (defval : Double) : Except Error Double := d.getAs .real defval
def getString (d : DbValue) (defval : Bytes) : Except Error Bytes := d.getAs .text defval
def getBytes (d : DbValue) (defval : Bytes) : Except Error Bytes := d.getAs .blob defval

end DbValue

namespace Getters
open DbValue
variable {α : Type} {d : DbValue}

/-- What a call with a default returns where the two kinds of getters are the same. -/
def Agree (payload : Payload α) (d : DbValue) (defval : α) : Prop :=
  ∃ a, d.readOr payload defval = .ok a ∧ d.getAs payload defval = .ok a

theorem agree_iff_type (payload : Payload α) (d : DbValue) (defval : α) :
    Agree payload d defval ↔ d.type = .null ∨ d.type = payload.kind := by
  unfold Agree readOr getAs DbValue.isNull Value.isNull
  by_cases null : d.value.getType = .null
  · simp [DbValue.type,null,payload.stored.1.symm]
  · by_cases own : d.value.getType = payload.kind
    · obtain ⟨a,read⟩ := payload.reads d.value own
      simp [DbValue.type,own,payload.stored.1,read]
    · obtain ⟨e,refused⟩ := payload.refuses d.value own null
      simp [DbValue.type,own,null,refused]

/-- The getters with a default return the same for every value of that type, whatever a program has done to it, and
otherwise exactly where the value is Null or of that storage type. -/
theorem agree_iff (payload : Payload α) (operations : List Operation) (member : d ∈ runAll operations []) (defval : α) :
    Agree payload d defval ↔ d.dbtype = payload.kind ∨ d.type = .null ∨ d.type = payload.kind := by
  rw [agree_iff_type]
  refine ⟨.inr,?_⟩
  rintro (typed | held)
  · have ruled := (runAll_sound operations []).2 (List.forall_mem_nil _) d member
    rcases ruled.2 with null | own | variant
    · exact .inl null
    · exact .inr (own.trans typed)
    · exact absurd (typed.symm.trans variant) payload.stored.2
  · exact held

theorem agree_iff_emptied : Agree .text ⟨.text,.null⟩ [97] := by
  have member : (⟨.text,.null⟩ : DbValue) ∈ runAll [.ofText [98] .text,.ejectText 0] [] := List.mem_cons_self
  exact (agree_iff .text [.ofText [98] .text,.ejectText 0] member [97]).mpr (.inl rfl)

end Getters

namespace Reading
variable {numerals : Numerals} {columns : Columns} {d : DbValue}

theorem getReal_answers (reads : List Access) {i : Nat} (inside : i < columns.cells.length) :
    answerAfter numerals columns reads (.getReal i) = .ok (.real (realOf numerals columns.cells[i])) := by
  have same (cell : Cell) : (Except.ok (realOf numerals (asText cell)) : Except Fault Double) =
      .ok (realOf numerals cell) := by
    cases cell <;> rfl
  rw [answerAfter,(run_tracks _).result (rowAfter_shows numerals columns reads),answer,answerAt_settled reads inside same]
  rfl

theorem getBlob_answers (reads : List Access) {i : Nat} (inside : i < columns.cells.length) :
    answerAfter numerals columns reads (.getBlob i) = .ok (.bytes (textOf numerals columns.cells[i])) := by
  have same (cell : Cell) : (Except.ok (textOf numerals (asText cell)) : Except Fault Bytes) =
      .ok (textOf numerals cell) := congrArg _ (asText_textOf cell)
  rw [answerAfter,(run_tracks _).result (rowAfter_shows numerals columns reads),answer,answerAt_settled reads inside same]
  rfl

theorem valueOf_value {type : ValueType} {cell : Cell} (made : valueOf type cell = .ok d) : d.value = cell.value := by
  have payload {kind : ValueType} {v : Value} (made : DbValue.ofPayload kind v type = .ok d) : d.value = v := by
    rw [DbValue.ofPayload_eq] at made
    split_ifs at made <;> cases made <;> rfl
  cases cell with
  | null =>
    cases made
    rfl
  | integer | float | text | blob => exact payload made

/-- The value that a column returns is that of its cell, or of the text that was made of a blob there. -/
theorem getValueAs_value (reads : List Access) {i : Nat} {type : ValueType} (inside : i < columns.cells.length)
    (returned : answerAfter numerals columns reads (.getValueAs i type) = .ok (.value d)) :
    d.value = columns.cells[i].value ∨ d.value = (asText columns.cells[i]).value := by
  have inside' : i < (settled columns reads).cells.length := by simpa [settled] using inside
  rw [answerAfter,(run_tracks _).result (rowAfter_shows numerals columns reads),answer,getValueAs_answer,
    answerAt_inside inside'] at returned
  have cell : (settled columns reads).cells.getD i .null = columns.cells[i] ∨
      (settled columns reads).cells.getD i .null = asText columns.cells[i] := by
    have found : (settled columns reads).cells.getD i .null = (settled columns reads).cells[i] := by
      simp [List.getD,inside']
    rw [found]
    simp only [settled,List.getElem_mapIdx]
    split_ifs
    · exact .inr rfl
    · exact .inl rfl
  cases made : valueOf type ((settled columns reads).cells.getD i .null) with
  | error e =>
    rw [made] at returned
    cases returned
  | ok other =>
    rw [made] at returned
    cases returned
    rcases cell with same | same
    · exact .inl (same ▸ valueOf_value made)
    · exact .inr (same ▸ valueOf_value made)

/-- Where a checked getter of the value from a column returns, the accessor of the column returns the same, whatever
else is read of the row before or in between. -/
structure GettersAgree (numerals : Numerals) (columns : Columns) (i : Nat) (d : DbValue) : Prop where
  int : ∀ n, d.getInt = .ok n → ∀ reads, answerAfter numerals columns reads (.getInt64 i) = .ok (.int64 n)
  real : ∀ x, d.getReal = .ok x → ∀ reads, answerAfter numerals columns reads (.getReal i) = .ok (.real x)
  text : ∀ content, d.getText = .ok content → ∀ reads, answerAfter numerals columns reads (.getText i) = .ok (.bytes content)
  blob : ∀ content, d.getBlob = .ok content → ∀ reads, answerAfter numerals columns reads (.getBlob i) = .ok (.bytes content)

theorem getters_agree (reads : List Access) {i : Nat} {type : ValueType} (inside : i < columns.cells.length)
    (returned : answerAfter numerals columns reads (.getValueAs i type) = .ok (.value d)) :
    GettersAgree numerals columns i d := by
  have value := getValueAs_value reads inside returned
  constructor
  · intro n read more
    rw [getInt64_answers numerals more inside]
    unfold DbValue.getInt at read
    generalize columns.cells[i] = cell at value ⊢
    cases cell <;> rcases value with same | same <;> rw [same] at read <;> cases read <;> rfl
  · intro x read more
    rw [getReal_answers more inside]
    unfold DbValue.getReal at read
    generalize columns.cells[i] = cell at value ⊢
    cases cell <;> rcases value with same | same <;> rw [same] at read <;> cases read <;> rfl
  · intro content read more
    rw [getText_answers numerals more inside]
    unfold DbValue.getText at read
    generalize columns.cells[i] = cell at value ⊢
    cases cell <;> rcases value with same | same <;> rw [same] at read <;> cases read <;> rfl
  · intro content read more
    rw [getBlob_answers more inside]
    unfold DbValue.getBlob at read
    generalize columns.cells[i] = cell at value ⊢
    cases cell <;> rcases value with same | same <;> rw [same] at read <;> cases read
    rfl

theorem getters_agree_real : ∃ d, answerAfter zeroNumerals mixed [.getText 2] (.getValueAs 2 .real) = .ok (.value d) ∧
    GettersAgree zeroNumerals mixed 2 d := by
  have returned : answerAfter zeroNumerals mixed [.getText 2] (.getValueAs 2 .real) =
      .ok (.value ⟨.real,.real (Library.Binary.Number.ofRat (10^20))⟩) := rfl
  exact ⟨_,returned,getters_agree [.getText 2] (by decide) returned⟩

end Reading
end Sl3
