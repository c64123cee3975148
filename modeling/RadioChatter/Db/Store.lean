import RadioChatter.Lib.Checked
import RadioChatter.Lib.Wrap
import Mathlib.Logic.Function.Basic

/-!
The row that `store_radio_data` inserts into the table `chatter`.

What each call of SQLite answers is given from outside. A parameter keeps the
value NULL until a call binds it, and a row is inserted where the step of the
statement answers `SQLITE_DONE`.
-/

namespace RadioChatter.Db

open Checked

inductive SqlValue
  | null
  | integer (n : ℤ)
  | text (bytes : List UInt8)
  | blob (bytes : List UInt8)
  deriving DecidableEq, Repr

/-- A row of `chatter`. -/
structure Row where
  freq : SqlValue
  time : SqlValue
  audio : SqlValue
  duration : SqlValue
  deriving DecidableEq, Repr

/-- The parameters of the statement. -/
inductive Parameter
  | freqVal
  | audioVal
  | durationVal
  deriving DecidableEq, Repr

def sqliteOk : ℤ := 0

def sqliteMisuse : ℤ := 21

def sqliteDone : ℤ := 101

/-- What SQLite answers to the calls of `store_radio_data`, and the text of
`datetime('now')`. -/
structure Answers where
  prepare : ℤ
  bindInt : ℤ
  bindBlob : ℤ
  step : ℤ
  now : List UInt8
  deriving DecidableEq, Repr

/-- A prepared statement, by the values of its parameters; the null pointer if
it could not be prepared. -/
abbrev Stmt := Option (Parameter → SqlValue)

def sqlitePrepare (code : ℤ) : Stmt := if code = sqliteOk then some fun _ => .null else none

/-- A value goes into the statement if the call that binds it succeeds. -/
def bindParameter (code : ℤ) (parameter : Parameter) (value : SqlValue) (stmt : Stmt) : Stmt :=
  stmt.map fun values =>
    if code = sqliteOk then Function.update values parameter value else values

/-- `sqlite3_bind_blob`. A negative length is undefined for a statement. -/
def bindBlob (code : ℤ) (parameter : Parameter) (bytes : List UInt8) (length : ℤ) :
    Stmt → Except Fault Stmt
  | none => .ok none
  | some values =>
      if length < 0 then .error .outOfBounds
      else do
        let blob ← slice bytes 0 length.toNat
        pure (bindParameter code parameter (.blob blob) (some values))

/-- `sqlite3_step`: the rows afterwards, and the code. -/
def sqliteStep (answers : Answers) (rows : List Row) : Stmt → List Row × ℤ
  | none => (rows, sqliteMisuse)
  | some values =>
      if answers.step = sqliteDone then
        (rows ++ [⟨values .freqVal, .text answers.now, values .audioVal, values .durationVal⟩],
          sqliteDone)
      else (rows, answers.step)

/-- The two bytes of a sample. -/
def sampleBytes (sample : Int16) : List UInt8 :=
  [sample.toUInt16.toUInt8, (sample.toUInt16 >>> 8).toUInt8]

/-- The bytes of the samples in memory. -/
def dataBytes (data : List Int16) : List UInt8 := data.flatMap sampleBytes

/-- The statement of `store_radio_data` with its parameters. -/
def boundStmt (answers : Answers) (data : List Int16) (freq : UInt32) : Except Fault Stmt :=
  let stmt := sqlitePrepare answers.prepare
  let stmt := bindParameter answers.bindInt .freqVal (.integer (CInt.wrap freq.toNat)) stmt
  bindBlob answers.bindBlob .audioVal (dataBytes data) (CInt.wrap (2 * data.length)) stmt

/-- `store_radio_data`: the rows of `chatter` afterwards, and the result. -/
def storeRadioData (answers : Answers) (rows : List Row) (data : List Int16) (freq : UInt32) :
    Except Fault (List Row × Bool) :=
  -- The codes of the calls before are added up, and nothing looks at the sum.
  (boundStmt answers data freq).map fun stmt =>
    let (rows, stmtResult) := sqliteStep answers rows stmt
    (rows, stmtResult = sqliteDone)

/-- The row holds the whole capture. -/
structure Row.Complete (row : Row) (data : List Int16) (freq : UInt32) : Prop where
  freq : row.freq = .integer freq.toNat
  audio : row.audio = .blob (dataBytes data)
  duration : row.duration ≠ .null

/-- A call that reports success has inserted one complete row. -/
def Stores (answers : Answers) (rows : List Row) (data : List Int16) (freq : UInt32) : Prop :=
  ∃ rows' success, storeRadioData answers rows data freq = .ok (rows', success) ∧
    (success = true → ∃ row, rows' = rows ++ [row] ∧ row.Complete data freq)

/-- What a bind call that may have failed leaves in its parameter. -/
def bound (code : ℤ) (value : SqlValue) : SqlValue := if code = sqliteOk then value else .null

/-- The parameters when the statement is stepped. -/
def boundValues (answers : Answers) (data : List Int16) (freq : UInt32) : Parameter → SqlValue
  | .freqVal => bound answers.bindInt (.integer (CInt.wrap freq.toNat))
  | .audioVal => bound answers.bindBlob (.blob (dataBytes data))
  | .durationVal => .null

@[simp] theorem length_dataBytes (data : List Int16) :
    (dataBytes data).length = 2 * data.length := by
  induction data with
  | nil => rfl
  | cons sample data ih =>
      have hcons : dataBytes (sample :: data) = sampleBytes sample ++ dataBytes data := rfl
      rw [hcons, List.length_append, ih, List.length_cons, sampleBytes, List.length_cons,
        List.length_cons, List.length_nil]
      omega

/-- Every call binds its own parameter, and none binds the duration. -/
theorem bindParameter_bindParameter (answers : Answers) (data : List Int16) (freq : UInt32) :
    bindParameter answers.bindBlob .audioVal (.blob (dataBytes data))
        (bindParameter answers.bindInt .freqVal (.integer (CInt.wrap freq.toNat))
          (some fun _ => .null)) =
      some (boundValues answers data freq) := by
  simp only [bindParameter, Option.map_some, Option.some.injEq]
  ext parameter
  cases parameter <;> simp [boundValues, bound] <;> split <;> split <;> simp_all

/-- The length of the blob survives its conversion. -/
theorem wrap_length_of_lt {data : List Int16} (h : data.length < 2 ^ 30) :
    CInt.wrap (2 * data.length) = (dataBytes data).length := by
  rw [length_dataBytes, CInt.wrap_of_lt (by omega) (by omega), Int.natCast_mul]
  rfl

/-- The length of a longer one becomes negative. -/
theorem wrap_length_of_le {data : List Int16} (hlo : 2 ^ 30 ≤ data.length)
    (hhi : data.length < 2 ^ 31) : CInt.wrap (2 * data.length) < 0 := by
  rw [CInt.wrap_of_le (by omega) (by omega)]
  omega

section Prepared

variable {answers : Answers} {data : List Int16} (freq : UInt32)

/-- Without a statement there is nothing to bind. -/
theorem boundStmt_of_prepare_ne (h : answers.prepare ≠ sqliteOk) :
    boundStmt answers data freq = .ok none := by
  rw [boundStmt, sqlitePrepare, if_neg h]
  rfl

theorem boundStmt_of_le (h : answers.prepare = sqliteOk) (hlo : 2 ^ 30 ≤ data.length)
    (hhi : data.length < 2 ^ 31) : boundStmt answers data freq = .error .outOfBounds := by
  rw [boundStmt, sqlitePrepare, if_pos h]
  simp only [bindParameter, Option.map_some, bindBlob, if_pos (wrap_length_of_le hlo hhi)]

theorem boundStmt_of_lt (h : answers.prepare = sqliteOk) (hlt : data.length < 2 ^ 30) :
    boundStmt answers data freq = .ok (some (boundValues answers data freq)) := by
  rw [← bindParameter_bindParameter, boundStmt, sqlitePrepare, if_pos h, wrap_length_of_lt hlt]
  have hslice : slice (dataBytes data) 0 (dataBytes data).length = .ok (dataBytes data) := by
    rw [slice_eq_ok (Nat.zero_le _) (le_refl _), List.take_length, List.drop_zero]
  simp only [bindParameter, Option.map_some, bindBlob, Int.toNat_natCast, hslice]
  rw [if_neg (by omega)]
  rfl

/-- **The row that is inserted.** Its duration is NULL whatever SQLite answers,
and what fails to be bound is NULL as well. -/
theorem storeRadioData_of_done (h : answers.prepare = sqliteOk) (hlt : data.length < 2 ^ 30)
    (hstep : answers.step = sqliteDone) (rows : List Row) :
    storeRadioData answers rows data freq = .ok (rows ++
      [⟨bound answers.bindInt (.integer (CInt.wrap freq.toNat)), .text answers.now,
        bound answers.bindBlob (.blob (dataBytes data)), .null⟩], true) := by
  rw [storeRadioData, boundStmt_of_lt freq h hlt, Except.map, sqliteStep, if_pos hstep]
  rfl

end Prepared

/-- **What success says.** Every call that reports it has left out the
duration, so only the calls that report a failure keep the promise. -/
theorem stores_iff (answers : Answers) (rows : List Row) {data : List Int16}
    (hdata : data.length < 2 ^ 31) (freq : UInt32) :
    Stores answers rows data freq ↔
      answers.prepare ≠ sqliteOk ∨ data.length < 2 ^ 30 ∧ answers.step ≠ sqliteDone := by
  rw [Stores]
  by_cases hprepare : answers.prepare = sqliteOk
  · by_cases hlt : data.length < 2 ^ 30
    · by_cases hstep : answers.step = sqliteDone
      · rw [storeRadioData_of_done freq hprepare hlt hstep rows]
        simp only [hprepare, hstep, ne_eq, not_true, and_false, or_self, iff_false]
        rintro ⟨rows', success, hrow, hcomplete⟩
        obtain ⟨rfl, rfl⟩ := Prod.mk.inj (Except.ok.inj hrow)
        obtain ⟨row, hrows, hrow⟩ := hcomplete rfl
        obtain rfl := List.singleton_inj.mp (List.append_cancel_left hrows)
        exact hrow.duration rfl
      · refine iff_of_true ⟨rows, false, ?_, nofun⟩ (Or.inr ⟨hlt, hstep⟩)
        rw [storeRadioData, boundStmt_of_lt freq hprepare hlt, Except.map, sqliteStep,
          if_neg hstep]
        simp [hstep]
    · rw [storeRadioData, boundStmt_of_le freq hprepare (not_lt.mp hlt) hdata]
      refine iff_of_false ?_ ?_
      · rintro ⟨rows', success, hrow, -⟩
        cases hrow
      · rintro (hfailed | ⟨hshort, -⟩)
        · exact hfailed hprepare
        · exact hlt hshort
  · refine iff_of_true ⟨rows, false, ?_, nofun⟩ (Or.inl hprepare)
    rw [storeRadioData, boundStmt_of_prepare_ne freq hprepare]
    rfl

theorem stores_iff_busy : Stores ⟨sqliteOk, sqliteOk, sqliteOk, 5, []⟩ [] [1, -2] 105000000 :=
  (stores_iff _ [] (by decide) _).mpr (Or.inr ⟨by decide, by decide⟩)

/-- Every call succeeds, and the frequency is one that fits. -/
theorem storeRadioData_success :
    storeRadioData ⟨sqliteOk, sqliteOk, sqliteOk, sqliteDone, []⟩ [] [1, -2] 105000000 =
        .ok ([⟨.integer 105000000, .text [], .blob [1, 0, 254, 255], .null⟩], true) ∧
      ¬ Stores ⟨sqliteOk, sqliteOk, sqliteOk, sqliteDone, []⟩ [] [1, -2] 105000000 := by
  have hstored :
      storeRadioData ⟨sqliteOk, sqliteOk, sqliteOk, sqliteDone, []⟩ [] [1, -2] 105000000 =
        .ok ([⟨.integer 105000000, .text [], .blob [1, 0, 254, 255], .null⟩], true) := by
    decide +kernel
  refine ⟨hstored, ?_⟩
  rintro ⟨rows', success, hrow, hcomplete⟩
  obtain ⟨rfl, rfl⟩ := Prod.mk.inj (Except.ok.inj (hstored.symm.trans hrow))
  obtain ⟨row, hrows, hrow⟩ := hcomplete rfl
  obtain rfl := List.singleton_inj.mp hrows
  exact hrow.duration rfl

end RadioChatter.Db
