import RadioChatter.Db.Open
import RadioChatter.Db.Store
import RadioChatter.Lib.Schedule

/-!
Any number of processes on one db.

`rcs_open_db` looks for the file, has SQLite open it and loads the schema in three
steps, and between any two of them other processes may take steps of their own,
store captures, close the db or die. SQLite makes each of its calls atomic.

A process that finds the file there does not load the schema. So the table is
there once the process that has created the file has loaded it, and never if that
process has died before.
-/

namespace RadioChatter.Db

open Schedule

/-- Where a process stands with the db. -/
inductive Stage
  | outside
  /-- behind `stat`, with its answer -/
  | looked (existed : Bool)
  /-- at the head of `load_db_schema` -/
  | loading
  /-- `rcs_open_db` has returned -/
  | connected
  deriving DecidableEq, Repr

/-- A call of `store_radio_data`; the length of the capture is an `int`. -/
structure StoreCall where
  answers : Answers
  data : List Int16
  freq : UInt32
  length_lt : data.length < 2 ^ 31
  deriving DecidableEq, Repr

/-- The row of a call that reports success. -/
def StoreCall.row (call : StoreCall) : Row :=
  ⟨bound call.answers.bindInt (.integer (CInt.wrap call.freq.toNat)), .text call.answers.now,
    bound call.answers.bindBlob (.blob (dataBytes call.data)), .null⟩

/-- The db file with the rows of `chatter`, the processes, and for the record the
calls that have reported success. -/
structure Shared (ι : Type) where
  file : FileSystem
  rows : List Row
  stage : ι → Stage
  reported : List StoreCall

/-- Nobody has ever run the program. -/
def Shared.init (ι : Type) : Shared ι := ⟨none, [], fun _ => .outside, []⟩

def Shared.hasChatter {ι : Type} (s : Shared ι) : Bool := s.file.any fun db => db.HasChatter

inductive DbAct (ι : Type)
  /-- `stat` -/
  | look (i : ι)
  /-- `sqlite3_open` -/
  | opens (i : ι) (succeeds : Bool)
  /-- `load_db_schema` -/
  | load (i : ι) (env : Environment)
  | stores (i : ι) (call : StoreCall)
  /-- `rcs_close_db` -/
  | closes (i : ι)
  | dies (i : ι)

variable {ι : Type} [DecidableEq ι]

def Shared.move (s : Shared ι) (i : ι) (stage : Stage) : Shared ι :=
  { s with stage := Function.update s.stage i stage }

/-- What a process does next, or `none` where it cannot. The statement of
`store_radio_data` can be prepared only where there is the table. -/
def dbStep (statements : List UInt8 → List Statement) (s : Shared ι) : DbAct ι → Option (Shared ι)
  | .look i => if s.stage i = .outside then some (s.move i (.looked s.file.isSome)) else none
  | .opens i succeeds =>
      match s.stage i with
      | .looked existed =>
          if succeeds then
            some ({ s with file := some (s.file.getD .empty) }.move i
              (if existed then .connected else .loading))
          else some (s.move i .outside)
      | _ => none
  | .load i env =>
      match s.stage i, s.file with
      | .loading, some db =>
          let loaded := loadDbSchema statements env db
          some ({ s with file := some loaded.1 }.move i
            (if loaded.2.isOk then .connected else .outside))
      | _, _ => none
  | .stores i call =>
      if s.stage i = .connected ∧ (call.answers.prepare = sqliteOk → s.hasChatter = true) then
        match storeRadioData call.answers s.rows call.data call.freq with
        | .error _ => none
        | .ok (rows, success) =>
            some { s with
              rows := rows
              reported := if success then s.reported ++ [call] else s.reported }
      else none
  | .closes i => if s.stage i = .connected then some (s.move i .outside) else none
  | .dies i => if s.stage i = .outside then none else some (s.move i .outside)

variable {statements : List UInt8 → List Statement} {s s' : Shared ι}

/-- A call either inserts its row and reports success, or does neither. -/
theorem storeRadioData_cases {call : StoreCall} {rows rows' : List Row} {success : Bool}
    (h : storeRadioData call.answers rows call.data call.freq = .ok (rows', success)) :
    (success = true ∧ rows' = rows ++ [call.row] ∧ call.answers.prepare = sqliteOk) ∨
      (success = false ∧ rows' = rows) := by
  by_cases hprepare : call.answers.prepare = sqliteOk
  · by_cases hlt : call.data.length < 2 ^ 30
    · by_cases hstep : call.answers.step = sqliteDone
      · rw [storeRadioData_of_done call.freq hprepare hlt hstep] at h
        obtain ⟨rfl, rfl⟩ := Prod.mk.inj (Except.ok.inj h)
        exact .inl ⟨rfl, rfl, hprepare⟩
      · rw [storeRadioData, boundStmt_of_lt call.freq hprepare hlt, Except.map, sqliteStep,
          if_neg hstep] at h
        obtain ⟨rfl, rfl⟩ := Prod.mk.inj (Except.ok.inj h)
        exact .inr ⟨decide_eq_false hstep, rfl⟩
    · rw [storeRadioData, boundStmt_of_le call.freq hprepare (not_lt.mp hlt) call.length_lt] at h
      cases h
  · rw [storeRadioData, boundStmt_of_prepare_ne call.freq hprepare] at h
    obtain ⟨rfl, rfl⟩ := Prod.mk.inj (Except.ok.inj h)
    exact .inr ⟨rfl, rfl⟩

/-- What an action can do: a process moves and the file stays, or is opened, or
gets a schema; or a call stores or does not. -/
theorem dbStep_cases {act : DbAct ι} (h : dbStep statements s act = some s') :
    (∃ i, act = .look i ∧ s.stage i = .outside ∧ s' = s.move i (.looked s.file.isSome)) ∨
    (∃ i existed, act = .opens i true ∧ s.stage i = .looked existed ∧
      s' = { s with file := some (s.file.getD .empty) }.move i
        (if existed then .connected else .loading)) ∨
    (∃ i env db, act = .load i env ∧ s.stage i = .loading ∧ s.file = some db ∧
      s' = { s with file := some (loadDbSchema statements env db).1 }.move i
        (if (loadDbSchema statements env db).2.isOk then .connected else .outside)) ∨
    (∃ i call, act = .stores i call ∧ s.stage i = .connected ∧ s.hasChatter = true ∧
      s' = { s with rows := s.rows ++ [call.row], reported := s.reported ++ [call] }) ∨
    (∃ i call, act = .stores i call ∧ s' = s) ∨
    (∃ i, (s.stage i ≠ .loading ∨ act = .dies i) ∧ s' = s.move i .outside) := by
  cases act with
  | look i =>
      obtain ⟨hstage, heq⟩ := Option.ite_none_right_eq_some.mp h
      exact .inl ⟨i, rfl, hstage, (Option.some.inj heq).symm⟩
  | opens i succeeds =>
      rw [dbStep] at h
      split at h
      next existed hstage =>
        cases succeeds with
        | true => exact .inr (.inl ⟨i, existed, rfl, hstage, (Option.some.inj h).symm⟩)
        | false =>
            refine .inr (.inr (.inr (.inr (.inr ⟨i, .inl ?_, (Option.some.inj h).symm⟩))))
            rw [hstage]
            exact Stage.noConfusion
      next => cases h
  | load i env =>
      rw [dbStep] at h
      split at h
      next db hstage hfile =>
        exact .inr (.inr (.inl ⟨i, env, db, rfl, hstage, hfile, (Option.some.inj h).symm⟩))
      next => cases h
  | stores i call =>
      obtain ⟨⟨hstage, hchatter⟩, heq⟩ := Option.ite_none_right_eq_some.mp h
      split at heq
      next => cases heq
      next rows success hstore =>
        obtain rfl := Option.some.inj heq
        obtain ⟨rfl, rfl, hprepare⟩ | ⟨rfl, rfl⟩ := storeRadioData_cases hstore
        · exact .inr (.inr (.inr (.inl ⟨i, call, rfl, hstage, hchatter hprepare, rfl⟩)))
        · exact .inr (.inr (.inr (.inr (.inl ⟨i, call, rfl, rfl⟩))))
  | closes i =>
      obtain ⟨hstage, heq⟩ := Option.ite_none_right_eq_some.mp h
      refine .inr (.inr (.inr (.inr (.inr ⟨i, .inl ?_, (Option.some.inj heq).symm⟩))))
      rw [hstage]
      exact Stage.noConfusion
  | dies i =>
      obtain ⟨-, heq⟩ := Option.ite_none_left_eq_some.mp h
      exact .inr (.inr (.inr (.inr (.inr ⟨i, .inr rfl, (Option.some.inj heq).symm⟩))))

@[simp] theorem move_stage_self (s : Shared ι) (i : ι) (stage : Stage) :
    (s.move i stage).stage i = stage :=
  Function.update_self ..

@[simp] theorem move_stage_of_ne (s : Shared ι) {i j : ι} (stage : Stage) (h : j ≠ i) :
    (s.move i stage).stage j = s.stage j :=
  Function.update_of_ne h ..

theorem dbStep_opens (statements : List UInt8 → List Statement) {i : ι} {existed : Bool}
    (h : s.stage i = .looked existed) (succeeds : Bool) :
    dbStep statements s (.opens i succeeds) =
      if succeeds then
        some ({ s with file := some (s.file.getD .empty) }.move i
          (if existed then .connected else .loading))
      else some (s.move i .outside) := by
  rw [dbStep, h]

theorem dbStep_load (statements : List UInt8 → List Statement) {i : ι} {db : DbFile}
    (h : s.stage i = .loading) (hfile : s.file = some db) (env : Environment) :
    dbStep statements s (.load i env) =
      some ({ s with file := some (loadDbSchema statements env db).1 }.move i
        (if (loadDbSchema statements env db).2.isOk then .connected else .outside)) := by
  rw [dbStep, h, hfile]

/-- A process that nobody disturbs opens the db as `rcsOpenDb` does. -/
theorem rcsOpenDb_alone (env : Environment) {i : ι} (hstage : s.stage i = .outside) :
    ∃ acts s', exec (dbStep statements) s acts = some s' ∧
      s'.file = (rcsOpenDb statements env s.file).1 ∧
      s'.stage i = (if (rcsOpenDb statements env s.file).2.isOk then .connected else .outside) ∧
      s'.rows = s.rows := by
  have hlook : dbStep statements s (.look i) = some (s.move i (.looked s.file.isSome)) := by
    rw [dbStep, if_pos hstage]
  have hopens := dbStep_opens statements (move_stage_self s i (.looked s.file.isSome)) env.dbOpens
  cases hopen : env.dbOpens with
  | false =>
      rw [hopen, if_neg Bool.false_ne_true] at hopens
      refine ⟨[.look i, .opens i false], _,
        exec_cons.mpr ⟨_, hlook, exec_cons.mpr ⟨_, hopens, exec_nil _⟩⟩, ?_, ?_, rfl⟩
      · simp [rcsOpenDb, hopen, Shared.move]
      · rw [move_stage_self]
        simp [rcsOpenDb, hopen, Except.isOk, Except.toBool]
  | true =>
      rw [hopen, if_pos rfl] at hopens
      cases hfile : s.file with
      | some db =>
          refine ⟨[.look i, .opens i true], _,
            exec_cons.mpr ⟨_, hlook, exec_cons.mpr ⟨_, hopens, exec_nil _⟩⟩, ?_, ?_, rfl⟩
          · simp [rcsOpenDb, hopen, Shared.move, hfile]
          · rw [move_stage_self]
            simp [rcsOpenDb, hopen, hfile, Except.isOk, Except.toBool]
      | none =>
          rw [hfile, Option.isSome_none, if_neg Bool.false_ne_true] at hopens
          rw [hfile, Option.isSome_none] at hlook
          have hload := dbStep_load statements
            (move_stage_self { s.move i (.looked false) with
              file := some ((s.move i (.looked false)).file.getD .empty) } i .loading) rfl env
          refine ⟨[.look i, .opens i true, .load i env], _, exec_cons.mpr ⟨_, hlook,
            exec_cons.mpr ⟨_, hopens, exec_cons.mpr ⟨_, hload, exec_nil _⟩⟩⟩, ?_, ?_, rfl⟩
          · simp [rcsOpenDb, hopen, Shared.move, hfile]
          · rw [move_stage_self]
            simp [rcsOpenDb, hopen, Shared.move, hfile]

/-! ### The rows -/

/-- The call that an action makes. -/
def DbAct.call? : DbAct ι → Option StoreCall
  | .stores _ call => some call
  | _ => none

theorem appends_of_dbStep {act : DbAct ι} (h : dbStep statements s act = some s') :
    ∃ calls, calls.Sublist act.call?.toList ∧ s'.reported = s.reported ++ calls ∧
      s'.rows = s.rows ++ calls.map StoreCall.row := by
  have hnone : s'.reported = s.reported → s'.rows = s.rows →
      ∃ calls, List.Sublist calls act.call?.toList ∧ s'.reported = s.reported ++ calls ∧
        s'.rows = s.rows ++ calls.map StoreCall.row := by
    intro hreported hrows
    exact ⟨[], List.nil_sublist _, by simpa using hreported, by simpa using hrows⟩
  obtain ⟨i, -, -, rfl⟩ | ⟨i, existed, -, -, rfl⟩ | ⟨i, env, db, -, -, -, rfl⟩ |
    ⟨i, call, rfl, -, -, rfl⟩ | ⟨i, call, -, rfl⟩ | ⟨i, -, rfl⟩ := dbStep_cases h
  · exact hnone rfl rfl
  · exact hnone rfl rfl
  · exact hnone rfl rfl
  · exact ⟨[call], List.Sublist.refl _, rfl, rfl⟩
  · exact hnone rfl rfl
  · exact hnone rfl rfl

/-- **The rows are the reports.** However the processes interleave, die and come
back, every row that is there stays, each call that reports success has inserted
its own row behind them, and no other call has inserted any. -/
theorem rows_append_reported {acts : List (DbAct ι)}
    (hexec : exec (dbStep statements) s acts = some s') :
    ∃ calls, calls.Sublist (acts.filterMap DbAct.call?) ∧ s'.reported = s.reported ++ calls ∧
      s'.rows = s.rows ++ calls.map StoreCall.row := by
  induction acts generalizing s with
  | nil =>
      obtain rfl : s = s' := Option.some.inj hexec
      exact ⟨[], List.Sublist.refl _, by simp, by simp⟩
  | cons act acts ih =>
      obtain ⟨t, ht, hrest⟩ := exec_cons.mp hexec
      obtain ⟨first, hfirst, hreported, hrows⟩ := appends_of_dbStep ht
      obtain ⟨rest, hsublist, hreported', hrows'⟩ := ih hrest
      refine ⟨first ++ rest, ?_, ?_, ?_⟩
      · have hcons : (act :: acts).filterMap DbAct.call? =
            act.call?.toList ++ acts.filterMap DbAct.call? := by
          cases hcall : act.call? with
          | none => rw [List.filterMap_cons_none hcall]; rfl
          | some call => rw [List.filterMap_cons_some hcall]; rfl
        rw [hcons]
        exact hfirst.append hsublist
      · rw [hreported', hreported, List.append_assoc]
      · rw [hrows', hrows, List.map_append, List.append_assoc]

/-- SQL with one statement. -/
def schemaOnly (text : List UInt8) : List Statement :=
  if text = dbSchemaSql then [.createChatter] else []

/-- Two samples, stored without an error. -/
def goodCall : StoreCall :=
  ⟨⟨sqliteOk, sqliteOk, sqliteOk, sqliteDone, []⟩, [1, -2], 105000000, by decide⟩

/-- The second process gets in while the first one is at the schema. -/
def getsInEarly : List (DbAct Bool) :=
  [.look false, .opens false true, .look true, .opens true true]

theorem rows_append_reported_two :
    ∃ s calls, exec (dbStep schemaOnly) (Shared.init Bool) (getsInEarly ++
        [.load false ⟨true, some dbSchemaSql, true⟩, .stores true goodCall, .closes true]) =
          some s ∧
      List.Sublist calls [goodCall] ∧ s.reported = [] ++ calls ∧
      s.rows = [] ++ calls.map StoreCall.row := by
  have hexec : (exec (dbStep schemaOnly) (Shared.init Bool) (getsInEarly ++
      [.load false ⟨true, some dbSchemaSql, true⟩, .stores true goodCall,
        .closes true])).isSome = true := by
    decide +kernel
  obtain ⟨s, hs⟩ := Option.isSome_iff_exists.mp hexec
  obtain ⟨calls, hcalls⟩ := rows_append_reported hs
  exact ⟨s, calls, hs, hcalls⟩

/-! ### A file without the table -/

/-- The file is there, and nobody is about to load a schema into it. -/
structure Settled (db : DbFile) (s : Shared ι) : Prop where
  file : s.file = some db
  stage : ∀ i, s.stage i ≠ .loading ∧ s.stage i ≠ .looked false

theorem Settled.move {db : DbFile} (h : Settled db s) (i : ι) {stage : Stage}
    (hloading : stage ≠ .loading) (hlooked : stage ≠ .looked false) :
    Settled db (s.move i stage) where
  file := h.file
  stage := by
    intro j
    by_cases hj : j = i
    · subst hj
      rw [move_stage_self]
      exact ⟨hloading, hlooked⟩
    · rw [move_stage_of_ne s stage hj]
      exact h.stage j

theorem Settled.dbStep {db : DbFile} (h : Settled db s) {act : DbAct ι}
    (hstep : dbStep statements s act = some s') :
    Settled db s' ∧ (¬ db.HasChatter → s'.rows = s.rows ∧ s'.reported = s.reported) := by
  obtain ⟨i, -, -, rfl⟩ | ⟨i, existed, -, hlooked, rfl⟩ | ⟨i, env, db', -, hloading, -, rfl⟩ |
    ⟨i, call, -, -, hchatter, rfl⟩ | ⟨i, call, -, rfl⟩ | ⟨i, -, rfl⟩ := dbStep_cases hstep
  · refine ⟨h.move i Stage.noConfusion ?_, fun _ => ⟨rfl, rfl⟩⟩
    rw [h.file, Option.isSome_some]
    intro heq
    cases heq
  · -- Only who has seen the file opens it now.
    cases existed with
    | false => exact absurd hlooked (h.stage i).2
    | true =>
        have hfile : some (s.file.getD .empty) = s.file := by
          rw [h.file, Option.getD_some]
        rw [hfile]
        exact ⟨h.move i Stage.noConfusion Stage.noConfusion, fun _ => ⟨rfl, rfl⟩⟩
  · exact absurd hloading (h.stage i).1
  · refine ⟨⟨h.file, h.stage⟩, fun hno => ?_⟩
    rw [Shared.hasChatter, h.file, Option.any_some, decide_eq_true_eq] at hchatter
    exact absurd hchatter hno
  · exact ⟨h, fun _ => ⟨rfl, rfl⟩⟩
  · exact ⟨h.move i Stage.noConfusion Stage.noConfusion, fun _ => ⟨rfl, rfl⟩⟩

/-- **A file that is left without the table stays without it.** Every later
process finds the file and opens it as it is, so no schema is ever loaded again,
and no capture is ever stored. -/
theorem settled_forever {db : DbFile} (h : Settled db s) {acts : List (DbAct ι)}
    (hexec : exec (dbStep statements) s acts = some s') :
    s'.file = some db ∧ (¬ db.HasChatter → s'.rows = s.rows ∧ s'.reported = s.reported) := by
  have hinvariant : Settled db s' ∧
      (¬ db.HasChatter → s'.rows = s.rows ∧ s'.reported = s.reported) := by
    refine exec_invariant
      (fun t => Settled db t ∧ (¬ db.HasChatter → t.rows = s.rows ∧ t.reported = s.reported))
      (fun _ => True) ?_ ⟨h, fun _ => ⟨rfl, rfl⟩⟩ (fun _ _ => trivial) hexec
    rintro t act t' ⟨ht, hrows⟩ - hstep
    obtain ⟨ht', hrows'⟩ := ht.dbStep hstep
    refine ⟨ht', fun hno => ?_⟩
    exact ⟨(hrows' hno).1.trans (hrows hno).1, (hrows' hno).2.trans (hrows hno).2⟩
  exact ⟨hinvariant.1.file, hinvariant.2⟩

/-- The statement of a call cannot be prepared without the table. -/
def refusedCall : StoreCall := ⟨⟨1, 0, 0, sqliteDone, []⟩, [1, -2], 105000000, by decide⟩

/-- A process has died at the schema, and another one comes. -/
theorem settled_forever_died :
    ∃ s, exec (dbStep schemaOnly) { Shared.init Bool with file := some .empty }
        [.look true, .opens true true, .stores true refusedCall] = some s ∧
      s.file = some .empty ∧ (¬ DbFile.empty.HasChatter → s.rows = [] ∧ s.reported = []) := by
  have hexec : (exec (dbStep schemaOnly) { Shared.init Bool with file := some .empty }
      [.look true, .opens true true, .stores true refusedCall]).isSome = true := by
    decide +kernel
  obtain ⟨s, hs⟩ := Option.isSome_iff_exists.mp hexec
  have hsettled : Settled .empty { Shared.init Bool with file := some DbFile.empty } :=
    ⟨rfl, fun _ => ⟨Stage.noConfusion, Stage.noConfusion⟩⟩
  exact ⟨s, hs, settled_forever hsettled hs⟩

/-! ### Who finds the table -/

/-- The schema is loaded where it is begun, and nobody dies. -/
def LoadsWell : DbAct ι → Prop
  | .load _ env => env.schema = some dbSchemaSql ∧ env.stepDone = true
  | .dies _ => False
  | _ => True

/-- A file without the table has somebody who is about to create it. -/
structure Attended (s : Shared ι) : Prop where
  chatter : s.file.isSome → s.hasChatter = true ∨ ∃ j, s.stage j = .loading
  found : ∀ i, s.stage i = .looked true ∨ s.stage i = .connected → s.file.isSome

/-- A process that does not load moves. -/
theorem Attended.move (h : Attended s) {i : ι} (hstage : s.stage i ≠ .loading) {stage : Stage}
    (hfound : stage = .looked true ∨ stage = .connected → s.file.isSome) :
    Attended (s.move i stage) where
  chatter := by
    intro hfile
    obtain hchatter | ⟨j, hj⟩ := h.chatter hfile
    · exact .inl hchatter
    · refine .inr ⟨j, ?_⟩
      rw [move_stage_of_ne, hj]
      rintro rfl
      exact hstage hj
  found := by
    intro j hj
    by_cases hji : j = i
    · subst hji
      rw [move_stage_self] at hj
      exact hfound hj
    · rw [move_stage_of_ne s stage hji] at hj
      exact h.found j hj

theorem hasChatter_loadDbSchema (hsql : (statements dbSchemaSql).head? = some .createChatter)
    {env : Environment} (henv : env.schema = some dbSchemaSql ∧ env.stepDone = true)
    (db : DbFile) : (loadDbSchema statements env db).1.HasChatter := by
  rw [loadDbSchema, henv.1]
  simp [schemaCommands_dbSchemaSql, hsql, henv.2, DbFile.HasChatter]

theorem Attended.dbStep (hsql : (statements dbSchemaSql).head? = some .createChatter)
    (h : Attended s) {act : DbAct ι} (hact : LoadsWell act)
    (hstep : dbStep statements s act = some s') : Attended s' := by
  obtain ⟨i, -, houtside, rfl⟩ | ⟨i, existed, -, hlooked, rfl⟩ |
    ⟨i, env, db, rfl, -, -, rfl⟩ | ⟨i, call, -, -, -, rfl⟩ | ⟨i, call, -, rfl⟩ |
    ⟨i, hmoves, rfl⟩ := dbStep_cases hstep
  · apply h.move
    · rw [houtside]
      exact Stage.noConfusion
    · rintro (heq | heq)
      · exact Stage.looked.inj heq
      · cases heq
  · cases existed with
    | true =>
        obtain ⟨db, hfile⟩ := Option.isSome_iff_exists.mp (h.found i (.inl hlooked))
        have hsame : some (s.file.getD .empty) = s.file := by
          rw [hfile, Option.getD_some]
        rw [hsame]
        apply h.move
        · rw [hlooked]
          exact Stage.noConfusion
        · intro _
          rw [hfile, Option.isSome_some]
    | false =>
        -- Who has created the file is the one to load its schema.
        refine ⟨fun _ => .inr ⟨i, move_stage_self ..⟩, fun _ _ => rfl⟩
  · refine ⟨fun _ => .inl ?_, fun _ _ => rfl⟩
    show Option.any _ (some (loadDbSchema statements env db).1) = true
    rw [Option.any_some, decide_eq_true_eq]
    exact hasChatter_loadDbSchema hsql hact db
  · exact ⟨h.chatter, h.found⟩
  · exact h
  · obtain hstage | rfl := hmoves
    · apply h.move hstage
      rintro (heq | heq) <;> cases heq
    · exact hact.elim

/-- **The table for whoever gets in.** Where no load of the schema fails and no
process dies, a process that `rcs_open_db` has let in finds the table, except
while another one that has created the file is still at its schema. -/
theorem connected_hasChatter (hsql : (statements dbSchemaSql).head? = some .createChatter)
    {acts : List (DbAct ι)} (hacts : ∀ act ∈ acts, LoadsWell act)
    (hexec : exec (dbStep statements) (Shared.init ι) acts = some s) {i : ι}
    (hconnected : s.stage i = .connected) :
    s.hasChatter = true ∨ ∃ j, j ≠ i ∧ s.stage j = .loading := by
  have hinit : Attended (Shared.init ι) := by
    constructor
    · intro h
      cases h
    · rintro i (h | h) <;> cases h
  have hattended : Attended s :=
    exec_invariant Attended LoadsWell (fun _ _ _ hs hact hstep => hs.dbStep hsql hact hstep)
      hinit hacts hexec
  obtain hchatter | ⟨j, hj⟩ := hattended.chatter (hattended.found i (.inr hconnected))
  · exact .inl hchatter
  · refine .inr ⟨j, ?_, hj⟩
    rintro rfl
    cases hconnected.symm.trans hj

/-- The exception is there: the second process is in, and there is no table yet. -/
theorem connected_hasChatter_early :
    ∃ s, exec (dbStep schemaOnly) (Shared.init Bool) getsInEarly = some s ∧
      s.stage true = .connected ∧ s.hasChatter = false ∧
      (s.hasChatter = true ∨ ∃ j, j ≠ true ∧ s.stage j = .loading) := by
  have hany : (exec (dbStep schemaOnly) (Shared.init Bool) getsInEarly).any
      (fun s => s.stage true = .connected ∧ s.hasChatter = false) = true := by
    decide +kernel
  obtain ⟨s, hs, hearly⟩ := Option.any_eq_true _ _ |>.mp hany
  obtain ⟨hconnected, hno⟩ := of_decide_eq_true hearly
  have hsql : (schemaOnly dbSchemaSql).head? = some .createChatter := by
    rw [schemaOnly, if_pos rfl]
    rfl
  have hacts : ∀ act ∈ getsInEarly, LoadsWell act := by
    simp [getsInEarly, LoadsWell]
  exact ⟨s, hs, hconnected, hno, connected_hasChatter hsql hacts hs hconnected⟩

end RadioChatter.Db
