import RadioChatter.Db.Open

/-!
How much of the schema file `load_db_schema` executes.

The characters of the file are counted in an `unsigned short`, so a longer
file is cut off, and of what has been read only the first statement is
compiled. Both go unnoticed where that statement succeeds.
-/

namespace RadioChatter.Db

variable (statements : List UInt8 → List Statement)

/-- A load that returns has handed the whole file to SQLite and executed every
statement in it. -/
def ExecutesFile (env : Environment) (db : DbFile) (file : List UInt8) : Prop :=
  ∀ db', loadDbSchema statements env db = (db', .ok ()) →
    schemaCommands file = file ∧ db'.executed = db.executed ++ statements file

variable {statements}

@[simp] theorem schemaCommands_eq_self_iff {file : List UInt8} :
    schemaCommands file = file ↔ file.length < 2 ^ 16 := by
  constructor
  · intro h
    have hlength := congrArg List.length h
    rw [schemaCommands, List.length_take] at hlength
    omega
  · intro h
    rw [schemaCommands, Nat.mod_eq_of_lt h, List.take_length]

/-- What is behind the characters that a count modulo `2 ^ 16` reaches is
never read. -/
theorem schemaCommands_append {file rest : List UInt8} (hfile : file.length < 2 ^ 16)
    (hrest : rest.length = 2 ^ 16) : schemaCommands (file ++ rest) = file := by
  have hlength : (file ++ rest).length % 2 ^ 16 = file.length := by
    rw [List.length_append, hrest]
    omega
  rw [schemaCommands, hlength, List.take_left]

/-- A text without a statement makes the program exit. -/
theorem loadDbSchema_of_nil {env : Environment} {file : List UInt8}
    (hfile : env.schema = some file) (hread : statements (schemaCommands file) = [])
    (db : DbFile) : loadDbSchema statements env db = (db, .error fatalDbError) := by
  simp only [loadDbSchema, hfile, hread, List.head?_nil]

theorem loadDbSchema_of_cons {env : Environment} {file : List UInt8}
    (hfile : env.schema = some file) {schemaStmt : Statement} {rest : List Statement}
    (hread : statements (schemaCommands file) = schemaStmt :: rest) (db : DbFile) :
    loadDbSchema statements env db =
      if env.stepDone then (⟨db.executed ++ [schemaStmt]⟩, .ok ())
      else (db, .error fatalDbError) := by
  simp only [loadDbSchema, hfile, hread, List.head?_cons]

/-- **The schema file as a whole.** A load that returns has executed all of it
only if the file is short and consists of one statement. -/
theorem executesFile_iff {env : Environment} {file : List UInt8} (hfile : env.schema = some file)
    (db : DbFile) :
    ExecutesFile statements env db file ↔
      env.stepDone = false ∨ statements (schemaCommands file) = [] ∨
        file.length < 2 ^ 16 ∧ (statements file).length = 1 := by
  rw [ExecutesFile]
  cases hread : statements (schemaCommands file) with
  | nil =>
      rw [loadDbSchema_of_nil hfile hread]
      simp
  | cons schemaStmt rest =>
      rw [loadDbSchema_of_cons hfile hread]
      cases env.stepDone with
      | false => simp
      | true =>
          constructor
          · intro h
            obtain ⟨hwhole, hexecuted⟩ := h _ rfl
            have hone : [schemaStmt] = statements file := List.append_cancel_left hexecuted
            exact Or.inr (Or.inr ⟨schemaCommands_eq_self_iff.mp hwhole, by rw [← hone]; rfl⟩)
          · rintro (hfalse | hnil | ⟨hlength, hone⟩) db' hload
            · cases hfalse
            · cases hnil
            · have hwhole := schemaCommands_eq_self_iff.mpr hlength
              rw [hwhole] at hread
              rw [hread] at hone
              obtain rfl := List.eq_nil_of_length_eq_zero (Nat.succ.inj hone)
              obtain ⟨rfl, -⟩ := Prod.mk.inj hload
              exact ⟨hwhole, by rw [hread]⟩

/-! ### The file of the repository, and more of it -/

/-- An index that the schema could be given. -/
def indexSql : List UInt8 := ("CREATE INDEX f ON chatter (freq);\n").toList.map fun c => c.toUInt8

/-- Characters that mean nothing, as many as the counter can tell apart. -/
def blanks : List UInt8 := List.replicate (2 ^ 16) 32

/-- How SQLite reads the schema, also with an index or blanks behind it. -/
def readSchema (text : List UInt8) : List Statement :=
  if text = dbSchemaSql ++ indexSql then [.createChatter, .other indexSql] else [.createChatter]

theorem readSchema_dbSchemaSql : readSchema dbSchemaSql = [.createChatter] := by
  apply if_neg
  rw [List.self_eq_append_right]
  decide

theorem length_dbSchemaSql_lt : dbSchemaSql.length < 2 ^ 16 := by
  rw [length_dbSchemaSql]
  decide

theorem executesFile_iff_repository :
    ExecutesFile readSchema ⟨true, some dbSchemaSql, true⟩ .empty dbSchemaSql := by
  refine (executesFile_iff rfl .empty).mpr (Or.inr (Or.inr ⟨length_dbSchemaSql_lt, ?_⟩))
  rw [readSchema_dbSchemaSql]
  rfl

/-- A second statement is dropped, and so are the characters behind the first
`2 ^ 16`, in loads that return. -/
theorem loads_part_of_file :
    (loadDbSchema readSchema ⟨true, some (dbSchemaSql ++ indexSql), true⟩ .empty =
        (⟨[.createChatter]⟩, .ok ()) ∧
      ¬ ExecutesFile readSchema ⟨true, some (dbSchemaSql ++ indexSql), true⟩ .empty
        (dbSchemaSql ++ indexSql)) ∧
    loadDbSchema readSchema ⟨true, some (dbSchemaSql ++ blanks), true⟩ .empty =
        (⟨[.createChatter]⟩, .ok ()) ∧
      ¬ ExecutesFile readSchema ⟨true, some (dbSchemaSql ++ blanks), true⟩ .empty
        (dbSchemaSql ++ blanks) := by
  have hindex : readSchema (dbSchemaSql ++ indexSql) = [.createChatter, .other indexSql] :=
    if_pos rfl
  have hwhole : schemaCommands (dbSchemaSql ++ indexSql) = dbSchemaSql ++ indexSql := by
    rw [schemaCommands_eq_self_iff, List.length_append, length_dbSchemaSql]
    decide
  have hcut : schemaCommands (dbSchemaSql ++ blanks) = dbSchemaSql :=
    schemaCommands_append length_dbSchemaSql_lt List.length_replicate
  have hloads : loadDbSchema readSchema ⟨true, some (dbSchemaSql ++ indexSql), true⟩ .empty =
      (⟨[.createChatter]⟩, .ok ()) :=
    loadDbSchema_of_cons rfl (by rw [hwhole, hindex]) .empty
  have hloads' : loadDbSchema readSchema ⟨true, some (dbSchemaSql ++ blanks), true⟩ .empty =
      (⟨[.createChatter]⟩, .ok ()) :=
    loadDbSchema_of_cons rfl (by rw [hcut, readSchema_dbSchemaSql]) .empty
  refine ⟨⟨hloads, ?_⟩, hloads', ?_⟩
  · intro h
    have hexecuted := (h _ hloads).2
    rw [hindex] at hexecuted
    cases hexecuted
  · intro h
    have hread := (h _ hloads').1
    rw [hcut, List.self_eq_append_right] at hread
    cases hread

end RadioChatter.Db
