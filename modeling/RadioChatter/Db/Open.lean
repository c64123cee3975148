import Mathlib.Algebra.Group.Nat.Defs
import Mathlib.Data.List.Basic
import Mathlib.Data.Nat.Notation

/-!
Opening the db over many runs of the program.

The file system is what the runs share. A run looks whether the db file is
there, lets SQLite open it, which creates an empty one if it is not, and loads
the schema into a file that was not there before; every failure on the way
exits the program and leaves the file as it is.

How SQLite reads a text as statements is a parameter.
-/

namespace RadioChatter.Db

/-- A SQL statement: the one that creates the table, or another one. -/
inductive Statement
  | createChatter
  | other (text : List UInt8)
  deriving DecidableEq, Repr

/-- A db file, by the statements executed on it. -/
structure DbFile where
  executed : List Statement
  deriving DecidableEq, Repr

def DbFile.empty : DbFile := ⟨[]⟩

/-- The db contains the table `chatter`. -/
def DbFile.HasChatter (db : DbFile) : Prop := .createChatter ∈ db.executed

instance : DecidablePred DbFile.HasChatter := fun db =>
  inferInstanceAs (Decidable (_ ∈ db.executed))

/-- What is stored as `rcs_captured.db`. -/
abbrev FileSystem := Option DbFile

/-- What a run meets: whether SQLite opens the db, the content of
`./assets/db_schema.sql` if it can be opened, and whether the step of the
schema statement answers `SQLITE_DONE`. -/
structure Environment where
  dbOpens : Bool
  schema : Option (List UInt8)
  stepDone : Bool
  deriving DecidableEq, Repr

/-- `FATAL_DB_ERROR`, with which the program exits. -/
def fatalDbError : ℕ := 3

/-- The file `db_schema.sql` of the repository. -/
def dbSchemaSql : List UInt8 :=
  ("CREATE TABLE IF NOT EXISTS \"chatter\" (\n    \"freq\" INTEGER,\n\t\"time\"\tTEXT,\n" ++
    "\t\"audio\"\tBLOB,\n\t\"duration\"\tREAL\n);\n").toList.map fun c => c.toUInt8

/-- What `load_db_schema` reads of the file: the count of its characters is an
`unsigned short`. -/
def schemaCommands (file : List UInt8) : List UInt8 := file.take (file.length % 2 ^ 16)

variable (statements : List UInt8 → List Statement)

/-- `load_db_schema`. Only the first statement of a text is compiled; without
one there is nothing to step. -/
def loadDbSchema (env : Environment) (db : DbFile) : DbFile × Except ℕ Unit :=
  match env.schema with
  | none => (db, .error fatalDbError)
  | some file =>
      -- `sqlite3_prepare_v2` is given no tail pointer: the rest is dropped.
      match (statements (schemaCommands file)).head? with
      | none => (db, .error fatalDbError)
      | some schemaStmt =>
          if env.stepDone then (⟨db.executed ++ [schemaStmt]⟩, .ok ())
          else (db, .error fatalDbError)

/-- `rcs_open_db`: the file afterwards, and whether it returned. -/
def rcsOpenDb (env : Environment) (fs : FileSystem) : FileSystem × Except ℕ Unit :=
  let dbExisted := fs.isSome
  if env.dbOpens then
    let db := fs.getD .empty
    if dbExisted then (some db, .ok ())
    else
      -- The file has been created by now, also where loading its schema exits.
      let (db, ending) := loadDbSchema statements env db
      (some db, ending)
  else (fs, .error fatalDbError)

/-- A sequence of runs, each on the file that the one before left. -/
def runs : FileSystem → List Environment → List (FileSystem × Except ℕ Unit)
  | _, [] => []
  | fs, env :: envs => rcsOpenDb statements env fs :: runs (rcsOpenDb statements env fs).1 envs

/-- A db that is opened where none was gets its schema. -/
def LoadsSchema (env : Environment) (fs : FileSystem) : Prop :=
  fs = none → env.dbOpens = true → env.schema = some dbSchemaSql ∧ env.stepDone = true

/-- Every run, on the file it finds, gets its schema. -/
def AllLoadSchema : FileSystem → List Environment → Prop
  | _, [] => True
  | fs, env :: envs =>
      LoadsSchema env fs ∧ AllLoadSchema (rcsOpenDb statements env fs).1 envs

variable {statements}

/-- The db file that is there has the table. -/
def Sound (fs : FileSystem) : Prop := ∀ db ∈ fs, db.HasChatter

theorem length_dbSchemaSql : dbSchemaSql.length = 108 := by decide +kernel

theorem schemaCommands_dbSchemaSql : schemaCommands dbSchemaSql = dbSchemaSql := by
  have hlength : dbSchemaSql.length < 2 ^ 16 := by
    rw [length_dbSchemaSql]
    decide
  rw [schemaCommands, Nat.mod_eq_of_lt hlength, List.take_length]

/-- A db that is there already is opened as it is, whatever it contains. -/
theorem rcsOpenDb_some (env : Environment) (db : DbFile) :
    (rcsOpenDb statements env (some db)).1 = some db := by
  rw [rcsOpenDb]
  split <;> rfl

theorem rcsOpenDb_none {env : Environment} (hload : LoadsSchema env none)
    (hsql : (statements dbSchemaSql).head? = some .createChatter) :
    rcsOpenDb statements env none =
      if env.dbOpens then (some ⟨[.createChatter]⟩, .ok ()) else (none, .error fatalDbError) := by
  by_cases hopen : env.dbOpens = true
  · obtain ⟨hschema, hstep⟩ := hload rfl hopen
    simp [rcsOpenDb, loadDbSchema, hopen, hschema, hstep, schemaCommands_dbSchemaSql, hsql,
      DbFile.empty]
  · simp [rcsOpenDb, hopen]

/-- One run: a file with the table stays one, and what is opened has it. -/
theorem Sound.rcsOpenDb {env : Environment} {fs : FileSystem} (h : Sound fs)
    (hload : LoadsSchema env fs) (hsql : (statements dbSchemaSql).head? = some .createChatter) :
    Sound (rcsOpenDb statements env fs).1 ∧
      ((rcsOpenDb statements env fs).2 = .ok () →
        ∃ db, (rcsOpenDb statements env fs).1 = some db ∧ db.HasChatter) := by
  cases fs with
  | none =>
      rw [rcsOpenDb_none hload hsql]
      split
      · have hchatter : DbFile.HasChatter ⟨[.createChatter]⟩ := by decide
        refine ⟨?_, fun _ => ⟨_, rfl, hchatter⟩⟩
        rintro db ⟨⟩
        exact hchatter
      · refine ⟨?_, ?_⟩
        · rintro db ⟨⟩
        · rintro ⟨⟩
  | some db =>
      rw [rcsOpenDb_some]
      exact ⟨h, fun _ => ⟨db, rfl, h db rfl⟩⟩

theorem Sound.runs (hsql : (statements dbSchemaSql).head? = some .createChatter)
    {envs : List Environment} {fs : FileSystem} (h : Sound fs)
    (hload : AllLoadSchema statements fs envs) :
    ∀ r ∈ runs statements fs envs, r.2 = .ok () → ∃ db, r.1 = some db ∧ db.HasChatter := by
  induction envs generalizing fs with
  | nil =>
      intro r hr
      cases hr
  | cons env envs ih =>
      obtain ⟨hfirst, hrest⟩ := hload
      obtain ⟨hnext, hreturns⟩ := h.rcsOpenDb hfirst hsql
      intro r hr
      rw [RadioChatter.Db.runs, List.mem_cons] at hr
      obtain rfl | hr := hr
      · exact hreturns
      · exact ih hnext hrest r hr

/-- **The schema over many runs.** Where every run that creates the db file
gets its schema, every db that is opened has the table. -/
theorem hasChatter_of_returns (hsql : (statements dbSchemaSql).head? = some .createChatter)
    {envs : List Environment} (hload : AllLoadSchema statements none envs) :
    ∀ r ∈ runs statements none envs, r.2 = .ok () → ∃ db, r.1 = some db ∧ db.HasChatter := by
  apply Sound.runs hsql _ hload
  rintro db ⟨⟩

/-- A run that SQLite fails, and one that creates the table. -/
theorem hasChatter_of_returns_two :
    (some ⟨[.createChatter]⟩, .ok ()) ∈
        runs (fun text => if text = dbSchemaSql then [.createChatter] else []) none
          [⟨false, none, false⟩, ⟨true, some dbSchemaSql, true⟩] ∧
      ∃ db, (some ⟨[.createChatter]⟩ : FileSystem) = some db ∧ db.HasChatter := by
  have hmem : (some ⟨[.createChatter]⟩, .ok ()) ∈
      runs (fun text => if text = dbSchemaSql then [.createChatter] else []) none
        [⟨false, none, false⟩, ⟨true, some dbSchemaSql, true⟩] := by
    simp [runs, rcsOpenDb, loadDbSchema, schemaCommands_dbSchemaSql, DbFile.empty]
  refine ⟨hmem, hasChatter_of_returns ?_ ?_ _ hmem rfl⟩
  · rw [if_pos rfl]
    rfl
  · refine ⟨?_, fun _ _ => ⟨rfl, rfl⟩, trivial⟩
    rintro - ⟨⟩

/-- The first run cannot open the schema file and exits, the second one
returns: the db it has opened is empty. -/
theorem returns_without_chatter :
    runs (fun text => if text = dbSchemaSql then [.createChatter] else []) none
        [⟨true, none, true⟩, ⟨true, some dbSchemaSql, true⟩] =
      [(some .empty, .error fatalDbError), (some .empty, .ok ())] ∧
    ¬ DbFile.empty.HasChatter := by
  exact ⟨rfl, by decide⟩

end RadioChatter.Db
