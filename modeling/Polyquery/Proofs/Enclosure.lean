import Polyquery.Proofs.Cleanup

/-! Transactions inside transactions. All handles of a database share one transaction, and each of them may be in test mode
or not. Main statement: inside an open transaction whatever goes on through handles, transactions of theirs included, only
adds to what is pending; so a transaction that is not inside another one, through a handle that is not in test mode, commits
nothing of all that if it fails. Around a transaction in test mode this does not hold. -/

namespace Polyquery

open Session

variable {σ α : Type} {L : Ledger σ} {c : Connection σ} {db : Database σ} {w w' w'' : World σ}

/-! ### Inside an open transaction -/

/-- A step that stays at its depth and, inside an open transaction, only adds to what is pending. -/
structure Ledger.Gathers (L : Ledger σ) (w w' : World σ) : Prop where
  level : w.Level w'
  adds : w.primary.inTransaction = true → 0 < w.depth → ∃ sent, L.Adds w w' sent

instance : IsPreorder (World σ) L.Gathers where
  refl w := ⟨rfl, fun _ _ => ⟨[], Ledger.adds_nil rfl rfl rfl⟩⟩
  trans w w' w'' h h' := by
    refine ⟨trans_of World.Level h.level h'.level, fun hopen hdepth => ?_⟩
    obtain ⟨sent, hadds⟩ := h.adds hopen hdepth
    obtain ⟨sent', hadds'⟩ := h'.adds (hadds.inTransaction.trans hopen) (hadds.depth ▸ hdepth)
    exact ⟨sent ++ sent', hadds.trans hadds'⟩

theorem World.Still.gathers (h : w.Still w') : L.Gathers w w' :=
  ⟨h.depth, fun _ _ => ⟨[], Ledger.adds_nil h.outside (h.opened .primary) h.depth⟩⟩

theorem gathers_outside {x : Effect σ α} (h : L.Untouched x) : Leads L.Gathers (outside x) := fun w =>
  ⟨(Ledger.quiet_outside h w).depth, fun _ _ => ⟨[], Ledger.quiet_outside h w⟩⟩

namespace Database

section

variable (hdb : db.primary = .connection c) (G : L.Governs c)
  (hlisted : ∀ has, db.catalogue = .listed has → ∀ table column, L.Untouched (has table column))
include hdb G

theorem conveys_gathers : db.Conveys .primary L.Gathers where
  still h := h.gathers
  prepare sql := by
    rw [Database.prepare, Database.driver, hdb]
    exact (still_prepare _ _ sql c).mono World.Still.gathers
  execute statement params w := by
    refine ⟨(db.conveys_level .primary).execute statement params w, fun hopen _ => ?_⟩
    rw [execute_eq hdb]
    exact Connection.runOnCursor_adds G _ _ _ hopen

/-- Inside a transaction every text goes to the primary. -/
theorem gathers_runText (h : Handle) (sql : String) (params : List Value) (operation : Operation)
    (table : Option String) (timeout : Option Int) :
    Leads L.Gathers (db.runText h sql params operation table timeout) := by
  intro w
  refine ⟨db.level_runText h sql params operation table timeout w, fun hopen hdepth => ?_⟩
  have hlink : outcome (db.linkFor h operation) w = (.ok .primary, w) := by
    rw [linkFor, outcome_get_bind, decide_eq_false (Nat.ne_of_gt hdepth), Bool.and_false]
    rfl
  rw [runText, after, outcome_bind_ok hlink]
  exact ((conveys_gathers hdb G).runContext h.readonly h.testMode
    { sql, params, operation, table, route := h.route, timeout } w).adds hopen hdepth

include hlisted

/-- Handles only add to what is pending inside an open transaction. -/
theorem conducts_gathers (allowed : Handle → Prop) : db.Conducts allowed fun x => Leads L.Gathers x where
  toSequences := sequences_leads _
  read _ hk := leads_bind leads_get hk
  remember _ _ := World.Still.gathers ⟨rfl, World.opened_eq rfl rfl rfl, rfl⟩
  lookUp := (conveys_gathers hdb G).lookUpColumn fun has hhas table column =>
    gathers_outside (hlisted has hhas table column)
  run _ _ _ _ := gathers_runText hdb G _ _ _ _ _ _
  raw _ _ _ := gathers_runText hdb G _ _ _ _ _ _
  lastKey _ := (conveys_gathers hdb G).lastKey (fun p hport => by rw [hdb] at hport; cases hport) _
  transaction _ _ x attempts hx w := by
    refine ⟨level_transaction _ attempts (hx.mono (·.level)) w, fun hopen hdepth => ?_⟩
    -- inside a transaction this one is its own work
    rw [after, transaction_nested _ attempts x hdepth]
    exact (hx w).adds hopen hdepth

end

/-! ### The outermost transaction -/

/-- A row of attempts commits nothing if it fails. -/
theorem tryAgain_fails {work : Session σ α} (hdb : db.primary = .connection c) (G : L.Governs c)
    (hsleep : ∀ pause, L.Untouched (db.sleep pause)) (hwork : Leads L.Gathers work) {f : Failure} (more : Nat) :
    ∀ (number : Nat) {w w' : World σ}, w.depth = 0 →
      outcome (db.tryAgain false work more number) w = (.error f, w') →
        L.committed w'.outside = L.committed w.outside := by
  have hfails : ∀ {w w' : World σ} {f : Failure}, w.depth = 0 → outcome (db.tryOnce false work) w = (.error f, w') →
      L.committed w'.outside = L.committed w.outside := by
    intro w w' f hdepth hf
    obtain ⟨sent, hadds⟩ := (hwork w.begun).adds rfl (Nat.succ_pos _)
    have hends := tryOnce_ends (w := w) hdb G ((hwork w.begun).level.trans (congrArg (· + 1) hdepth))
    exact (hends.error hf).2.1.trans hadds.committed
  induction more with
  | zero => exact fun _ _ _ hdepth hf => hfails hdepth hf
  | succ more ih =>
      intro number w w' hdepth hall
      rcases db.tryAgain_turn work more number w with ⟨a, -, ha, -⟩ | ⟨g, waited, hg, hwaited, hturn⟩
      · rw [ha] at hall
        cases hall
      · have hquiet := waitAfter_quiet hsleep number g (after (db.tryOnce false work) w)
        rw [← hwaited] at hquiet
        have hsame : L.committed waited.outside = L.committed w.outside := hquiet.committed.trans (hfails hdepth hg)
        rcases hturn with ⟨hend, -⟩ | ⟨-, _, hend⟩ | ⟨-, hgo, -⟩
        · rw [hend] at hall
          cases hall
          exact hfails hdepth hg
        · rw [hend] at hall
          cases hall
          exact hsame
        · have hlevel : waited.depth = 0 :=
            hquiet.depth.trans ((level_tryOnce false (hwork.mono (·.level)) w).trans hdepth)
          exact (ih (number + 1) hlevel (hgo.symm.trans hall)).trans hsame

/-- What fails without an interrupt as a transaction of its own leaves nothing, neither committed nor pending. -/
theorem transaction_fails {work : Session σ α} (hdb : db.primary = .connection c) (G : L.Governs c)
    (hsleep : ∀ pause, L.Untouched (db.sleep pause)) (hwork : Leads L.Gathers work) (attempts : Value)
    (hidle : L.Idle w) {f : Failure} (hf : outcome (db.transaction false attempts work) w = (.error f, w')) :
    L.committed w'.outside = L.committed w.outside ∧ (f.isInterrupt = false → L.Idle w') := by
  constructor
  · obtain ⟨hunasked, hgo⟩ := db.transaction_outermost false attempts work hidle.depth
    cases hattempts : db.settings.retry.attemptsFrom attempts with
    | error g =>
        rw [hunasked g hattempts] at hf
        cases hf
        rfl
    | ok number =>
        rw [hgo number hattempts] at hf
        split at hf
        · cases hf
          rfl
        · have hleft : after (db.tryAgain false work (number.toNat - 1) 1) w = w' := congrArg Prod.snd hf
          rw [← hleft]
          cases hg : ending (db.tryAgain false work (number.toNat - 1) 1) w with
          | ok a =>
              rw [hg] at hf
              cases hf
          | error g => exact tryAgain_fails hdb G hsleep hwork (number.toNat - 1) 1 hidle.depth (by rw [outcome_eq, hg])
  · intro hordinary
    obtain ⟨hfree, hpending⟩ := transaction_leaves hdb G hsleep (hwork.mono (·.level)) attempts hidle
    rw [after, ending, hf] at hpending
    rw [after, hf] at hfree
    refine ⟨hfree.closed, hpending.resolve_right ?_, hfree.depth⟩
    rintro ⟨g, hg, hinterrupt, -⟩
    cases hg
    rw [hordinary] at hinterrupt
    cases hinterrupt

end Database

/-- A transaction through a handle that is not in test mode is atomic whatever it encloses, as long as nothing encloses it.
If it fails, nothing of all that went on inside is committed, through whatever handles, and in transactions of theirs or not;
nor is anything left pending, unless the failure is an interrupt. Inside of it nothing can be committed at all: what goes on
there only adds to what is pending, and a transaction of another handle is no more than its work. -/
theorem Course.transaction_seals {allowed : Handle → Prop} (hdb : db.primary = .connection c) (G : L.Governs c)
    (hsleep : ∀ pause, L.Untouched (db.sleep pause))
    (hlisted : ∀ has, db.catalogue = .listed has → ∀ table column, L.Untouched (has table column)) :
    (∀ (h : Handle), h.testMode = false → ∀ (attempts : Value) (work : Course allowed α) {w : World σ} {f : Failure},
      L.Idle w → ending (db.transaction h.testMode attempts (work.play db)) w = .error f →
        let w' := after (db.transaction h.testMode attempts (work.play db)) w
        L.committed w'.outside = L.committed w.outside ∧ (f.isInterrupt = false → L.Idle w')) ∧
    ∀ (work : Course allowed α) {w : World σ}, w.primary.inTransaction = true → 0 < w.depth →
      (∃ sent, L.Adds w (after (work.play db) w) sent) ∧
        ∀ (h : Handle) (attempts : Value),
          outcome (db.transaction h.testMode attempts (work.play db)) w = outcome (work.play db) w := by
  have hgathers : ∀ work : Course allowed α, Leads L.Gathers (work.play db) := fun work =>
    work.conducted (Database.conducts_gathers hdb G hlisted allowed)
  constructor
  · intro h hlive attempts work w f hidle hf w'
    rw [hlive] at hf
    have hfailed : outcome (db.transaction false attempts (work.play db)) w = (.error f, w') := by
      rw [outcome_eq, hf, ← hlive]
    exact Database.transaction_fails hdb G hsleep (hgathers work) attempts hidle hfailed
  · exact fun work w hopen hdepth => ⟨(hgathers work w).adds hopen hdepth,
      fun h attempts => Database.transaction_nested h.testMode attempts (work.play db) hdepth⟩

/-- A statement inside a transaction in which another one, through a handle in test mode, then fails. -/
def enclosedFailure : Course (fun _ => True) Result :=
  .raw {} trivial "INSERT INTO t VALUES (1)" [] fun _ =>
    .transaction { testMode := true } trivial .null (.done (.error (.of (.foreign .runtime [.text "stop"])))) .done

theorem transaction_seals_failure :
    let db := Database.inMemory .memory
    let x := db.transaction false .null (enclosedFailure.play db)
    ∃ f, ending x { outside := ([], []) } = .error f ∧
      Ledger.memory.committed (after x { outside := ([], []) }).outside = [] := by
  intro db x
  obtain ⟨hsealed, -⟩ := @Course.transaction_seals _ Result Ledger.memory .memory db (fun _ => True) rfl
    Ledger.memory_governs (Database.untouched_inMemory .memory) fun has hhas => by cases hhas
  have hfailed : (ending (db.transaction false .null (enclosedFailure.play db)) { outside := ([], []) }).isOk = false := by
    decide +kernel
  have hleft := fun f => hsealed {} rfl .null enclosedFailure (w := { outside := ([], []) }) (f := f) ⟨rfl, rfl, rfl⟩
  dsimp only at hleft
  unfold x
  cases hending : ending (db.transaction false .null (enclosedFailure.play db)) { outside := ([], []) } with
  | ok r =>
      rw [hending] at hfailed
      cases hfailed
  | error f => exact ⟨f, rfl, (hleft f hending).1⟩

/-- Around a transaction in test mode another one protects nothing: its statement is committed although its work fails, and
so does everything around it. -/
theorem rehearsed_unseals :
    let db := Database.inMemory .memory
    let failing : Course (fun _ => True) Result :=
      .raw {} trivial "INSERT INTO t VALUES (1)" [] fun _ => .done (.error (.of (.foreign .runtime [.text "stop"])))
    let enclosing : Course (fun _ => True) Result :=
      .transaction { testMode := true } trivial .null (.transaction {} trivial .null failing .done) .done
    (ending (enclosing.play db) { outside := ([], []) }).isOk = false ∧
      (Ledger.memory.committed (after (enclosing.play db) { outside := ([], []) }).outside).map (·.1) =
        ["INSERT INTO t VALUES (1)"] := by
  decide +kernel

end Polyquery
