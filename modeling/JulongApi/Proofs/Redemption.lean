/-
A redemption code, credited and refunded.

Of a code's row two things decide what may happen to it: its status and whether it is
deleted.  `code` is this view, and the first section says what each operation does to it.

A code that was credited has status used, and one that was refunded is deleted; the first
keeps it from being redeemed or refunded again, the second from being redeemed.  An edit
breaks this when it writes an older status over `used`, and the sweep breaks it when it
refunds a row that was redeemed after it was read.  As long as neither happens the two
exclude each other (`credited_or_refunded`).
-/
import JulongApi.Redemption
import JulongApi.Proofs.Wallet

namespace JulongApi

/-! ### What the operations do to a code -/

variable {r : Redemption} {key : String} {userId : Nat} {now : Int} {c : RedemptionStatus × Bool}

namespace RedemptionDB

variable {db db' : RedemptionDB} {id : Nat}

def code (db : RedemptionDB) (id : Nat) : Option (RedemptionStatus × Bool) :=
  (db.redemptions.find id).map fun r => (r.status, r.deleted)

theorem code_of_find (h : db.redemptions.find id = some r) :
    db.code id = some (r.status, r.deleted) := by
  rw [code, h]
  rfl

theorem code_softDelete (ids : List Nat) :
    (db.softDelete ids).code id =
      if id ∈ ids then (db.code id).map fun c => (c.1, true) else db.code id := by
  unfold code softDelete
  dsimp only
  rw [Table.find_mapRows]
  cases hfind : db.redemptions.find id with
  | none => simp
  | some r =>
    have hid : r.id = id := Table.key_of_find hfind
    by_cases hmem : id ∈ ids
    · simp [hid, hmem]
    · simp [hid, hmem]

theorem code_refund (r : Redemption) :
    (db.refundAgentRedemptionCharge r).2.code id = db.code id := by
  unfold refundAgentRedemptionCharge
  split
  · rfl
  · unfold code
    dsimp only
    rw [Table.find_update]
    swap
    · exact fun _ => rfl
    split
    · cases db.redemptions.find id with
      | none => rfl
      | some row =>
        simp only [Option.map_some]
        split <;> rfl
    · rfl

theorem code_refundAll : ∀ (rows : List Redemption) (db : RedemptionDB),
    (refundAll rows db).2.code id = db.code id := by
  intro rows
  induction rows with
  | nil => intro db; rfl
  | cons r rest ih =>
    intro db
    show (refundAll rest (db.refundAgentRedemptionCharge r).2).2.code id = db.code id
    rw [ih, code_refund]

theorem code_deleteRows (rows : List Redemption) :
    (db.deleteRows rows).2.code id =
      if id ∈ rows.map (·.id) then (db.code id).map fun c => (c.1, true) else db.code id := by
  show ((refundAll rows db).2.softDelete (rows.map (·.id))).code id = _
  rw [code_softDelete, code_refundAll]

theorem mem_refundAll {f : Refund} : ∀ {rows : List Redemption} {db : RedemptionDB},
    f ∈ (refundAll rows db).1 → ∃ r ∈ rows, r.id = f.code ∧ r.status ≠ .used := by
  intro rows
  induction rows with
  | nil => intro db h; simp [refundAll] at h
  | cons r rest ih =>
    intro db h
    have hmem : f ∈ (db.refundAgentRedemptionCharge r).1 ∨
        f ∈ (refundAll rest (db.refundAgentRedemptionCharge r).2).1 := List.mem_append.mp h
    rcases hmem with hhead | hrest
    · unfold refundAgentRedemptionCharge at hhead
      split at hhead
      · simp at hhead
      · rename_i agent refund hrefund
        obtain rfl := List.mem_singleton.mp hhead
        refine ⟨r, by simp, rfl, ?_⟩
        intro hused
        simp [agentRefund, hused] at hrefund
    · obtain ⟨r', hr', hid, hstatus⟩ := ih hrest
      exact ⟨r', List.mem_cons_of_mem _ hr', hid, hstatus⟩

theorem code_update (copy : Redemption) :
    (db.update copy).code id = db.code id ∨
      (id = copy.id ∧ (∃ status, db.code id = some (status, false)) ∧
        (db.update copy).code id = some (copy.status, false)) := by
  unfold update
  split
  · exact .inl rfl
  unfold code
  dsimp only
  rw [Table.find_update]
  swap
  · exact fun _ => rfl
  by_cases hid : id = copy.id
  · rw [if_pos hid]
    cases hfind : db.redemptions.find id with
    | none => exact .inl rfl
    | some row =>
      cases hdeleted : row.deleted with
      | true => simp [hdeleted]
      | false => exact .inr ⟨hid, ⟨row.status, by simp [hdeleted]⟩, by simp [hdeleted]⟩
  · rw [if_neg hid]
    exact .inl rfl

def redeemedRow (r : Redemption) (userId : Nat) (now : Int) : Redemption :=
  { r with redeemedTime := now, status := .used, usedUserId := userId }

theorem redeem_saves (h : db.redeem key userId now = some (r, db')) :
    db.redemptions.find r.id = some r ∧ r.status = .enabled ∧ r.deleted = false ∧
      db'.redemptions = db.redemptions.save (redeemedRow r userId now) := by
  unfold redeem at h
  split at h
  · simp at h
  split at h
  · simp at h
  next row hrow =>
  split at h
  · simp at h
  next hstatus =>
  split at h
  · simp at h
  split at h
  · simp at h
  split at h
  · simp at h
  simp only [Option.some.injEq, Prod.mk.injEq] at h
  obtain ⟨rfl, rfl⟩ := h
  have hlive : row.key = key ∧ row.deleted = false := by simpa using List.find?_some hrow
  refine ⟨Table.find_of_mem (List.mem_of_find?_eq_some hrow), ?_, hlive.2, rfl⟩
  by_contra hne
  exact hstatus (.inl hne)

theorem redeem_some (h : db.redeem key userId now = some (r, db')) :
    db.code r.id = some (.enabled, false) ∧ db'.code r.id = some (.used, false) ∧
      ∀ id, id ≠ r.id → db'.code id = db.code id := by
  obtain ⟨hfind, henabled, hlive, hsaved⟩ := redeem_saves h
  refine ⟨?_, ?_, ?_⟩
  · rw [code_of_find hfind, henabled, hlive]
  · have hnew : (db.redemptions.save (redeemedRow r userId now)).find r.id =
        some (redeemedRow r userId now) := Table.find_save_self hfind
    rw [← hsaved] at hnew
    rw [code_of_find hnew]
    simp only [redeemedRow, hlive]
  · intro id hid
    have hkey : (redeemedRow r userId now).id ≠ id := Ne.symm hid
    rw [code, hsaved, Table.find_save_ne hkey, code]

variable {req : AddRedemptionRequest} {charge : Int}

theorem createCodes_cons {newId i : Nat} {rest : List (Nat × String)}
    (h : createCodes req userId charge now i ((newId, key) :: rest) db = some db') :
    ∃ redemptions, db.redemptions.insert (req.code userId charge now i newId key) =
        some redemptions ∧
      createCodes req userId charge now (i + 1) rest { db with redemptions := redemptions } =
        some db' := by
  unfold createCodes at h
  split at h
  · simp at h
  split at h
  · simp at h
  next redemptions hinsert => exact ⟨redemptions, hinsert, h⟩

theorem code_createCodes :
    ∀ {codes : List (Nat × String)} {i : Nat} {db : RedemptionDB},
      createCodes req userId charge now i codes db = some db' → ∀ c, db.code id = some c →
      db'.code id = some c := by
  intro codes
  induction codes with
  | nil =>
    intro i db h c hc
    cases h
    exact hc
  | cons head rest ih =>
    obtain ⟨newId, key⟩ := head
    intro i db h c hc
    obtain ⟨redemptions, hinsert, h⟩ := createCodes_cons h
    refine ih h c ?_
    have hne : newId ≠ id := by
      rintro rfl
      have hfree : db.redemptions.find newId = none := Table.find_of_insert hinsert
      rw [code, hfree] at hc
      simp at hc
    unfold code
    dsimp only
    rw [Table.find_insert_ne hinsert hne]
    exact hc

theorem redemptions_chargeWallet (h : db.chargeWallet userId charge = some db') :
    db'.redemptions = db.redemptions := by
  unfold chargeWallet at h
  split at h
  · split at h
    · simp at h
    · split at h
      · cases h
        rfl
      · simp at h
  · cases h
    rfl

theorem createRedemptions_some {codes : List (Nat × String)}
    (h : db.createRedemptionsWithWalletCharge userId req charge now codes = some db') :
    0 < req.count ∧ codes.length = req.count ∧ ∃ charged,
      charged.redemptions = db.redemptions ∧
        createCodes req userId charge now 0 codes charged = some db' := by
  unfold createRedemptionsWithWalletCharge at h
  split at h
  · simp at h
  next hargs =>
  split at h
  · simp at h
  next charged hcharge =>
  simp only [not_or, not_not] at hargs
  exact ⟨Nat.pos_of_ne_zero hargs.2.1, hargs.2.2, charged, redemptions_chargeWallet hcharge, h⟩

theorem code_create {codes : List (Nat × String)}
    (h : db.createRedemptionsWithWalletCharge userId req charge now codes = some db')
    (hc : db.code id = some c) : db'.code id = some c := by
  obtain ⟨-, -, charged, hsame, hcodes⟩ := createRedemptions_some h
  refine code_createCodes hcodes c ?_
  rw [code, hsame]
  exact hc

end RedemptionDB

/-! ### One step -/

namespace RedemptionSystem

variable {s t : RedemptionSystem} {a : RedemptionAct} {id : Nat}

inductive StepCase (s : RedemptionSystem) : RedemptionAct → RedemptionSystem → Prop where
  | add {creatorId : Nat} {role : Int} {req : AddRedemptionRequest} {now charge : Int}
      {codes : List (Nat × String)} {db : RedemptionDB}
      (hcharge : addRedemptionCharge s.db creatorId role req now = some charge)
      (hcreate : s.db.createRedemptionsWithWalletCharge creatorId req charge now codes = some db) :
      StepCase s (.add creatorId role req now codes)
        { s with db := db, charges := s.charged creatorId charge }
  | redeem {key : String} {userId : Nat} {now : Int} {r : Redemption} {db : RedemptionDB}
      (hredeem : s.db.redeem key userId now = some (r, db)) :
      StepCase s (.redeem key userId now)
        { s with db := db, credits := (r.id, userId) :: s.credits }
  | editRead {id : Nat} {edit : RedemptionEdit} {now : Int} {copy : Redemption}
      (hread : s.db.readForUpdate id edit now = some copy) :
      StepCase s (.editRead id edit now) { s with edits := s.edits ++ [copy] }
  | editWrite {i : Nat} {copy : Redemption} (hcopy : s.edits[i]? = some copy) :
      StepCase s (.editWrite i) { s with db := s.db.update copy, edits := s.edits.eraseIdx i }
  | deleteByIds (ids : List Nat) :
      StepCase s (.deleteByIds ids) { s with
        db := (s.db.deleteRows (s.db.rowsByIds ids)).2
        refunds := (s.db.deleteRows (s.db.rowsByIds ids)).1 ++ s.refunds }
  | readInvalid (now : Int) :
      StepCase s (.readInvalid now) { s with sweeps := s.sweeps ++ [s.db.invalidRows now] }
  | deleteInvalid {i : Nat} {rows : List Redemption} (hrows : s.sweeps[i]? = some rows) :
      StepCase s (.deleteInvalid i) { s with
        db := (s.db.deleteRows rows).2
        sweeps := s.sweeps.eraseIdx i
        refunds := (s.db.deleteRows rows).1 ++ s.refunds }
  | batchDelete (ids : List Nat) :
      StepCase s (.batchDelete ids) { s with db := s.db.softDelete ids }
  /-- the two actions that only touch a user -/
  | users {a : RedemptionAct} {users : Table RedemptionUser.id}
      (ha : (∃ id role isAgent discount, a = .configure id role isAgent discount) ∨
        ∃ id delta, a = .moveWallet id delta) :
      StepCase s a { s with db := { s.db with users := users } }

theorem step_cases (h : step s a = some t) : StepCase s a t := by
  cases a with
  | add creatorId role req now codes =>
    simp only [step] at h
    split at h
    · simp at h
    next charge hcharge =>
    split at h
    · simp at h
    next db hcreate =>
    cases h
    exact .add hcharge hcreate
  | redeem key userId now =>
    simp only [step] at h
    split at h
    · simp at h
    next r db hredeem =>
    cases h
    exact .redeem hredeem
  | editRead newId edit now =>
    simp only [step] at h
    split at h
    · simp at h
    next copy hread =>
    cases h
    exact .editRead hread
  | editWrite i =>
    simp only [step] at h
    split at h
    · simp at h
    next copy hcopy =>
    cases h
    exact .editWrite hcopy
  | deleteByIds ids =>
    cases h
    exact .deleteByIds ids
  | readInvalid now =>
    cases h
    exact .readInvalid now
  | deleteInvalid i =>
    simp only [step] at h
    split at h
    · simp at h
    next rows hrows =>
    cases h
    exact .deleteInvalid hrows
  | batchDelete ids =>
    cases h
    exact .batchDelete ids
  | configure userId role isAgent agentDiscount =>
    cases h
    exact .users (.inl ⟨_, _, _, _, rfl⟩)
  | moveWallet userId delta =>
    cases h
    exact .users (.inr ⟨_, _, rfl⟩)

structure CodeOK (s : RedemptionSystem) (id : Nat) : Prop where
  once : s.creditCount id ≤ 1
  used : 0 < s.creditCount id → ∃ deleted, s.db.code id = some (.used, deleted)
  kept : 0 < s.creditCount id → s.refundsFor id = []
  refunded : s.refundsFor id ≠ [] → ∃ status, s.db.code id = some (status, true)

/--
No copy is acted upon after the code it was taken of has been used: an edit does not write
another status over `used`, and a sweep does not refund what has been used since it was read.
-/
def Current (s : RedemptionSystem) : RedemptionAct → Prop
  | .editWrite i => ∀ copy, s.edits[i]? = some copy →
      s.db.code copy.id = some (.used, false) → copy.status = .used
  | .deleteInvalid i => ∀ rows, s.sweeps[i]? = some rows → ∀ r ∈ rows, r.status ≠ .used →
      ∀ deleted, s.db.code r.id ≠ some (.used, deleted)
  | _ => True

theorem CodeOK.of_code (hs : s.CodeOK id) (hcredits : t.credits = s.credits)
    (hrefunds : t.refunds = s.refunds)
    (hused : ∀ deleted, s.db.code id = some (.used, deleted) →
      ∃ deleted', t.db.code id = some (.used, deleted'))
    (hdeleted : ∀ status, s.db.code id = some (status, true) →
      ∃ status', t.db.code id = some (status', true)) : t.CodeOK id := by
  have hcount : t.creditCount id = s.creditCount id := by rw [creditCount, hcredits]; rfl
  have hfor : t.refundsFor id = s.refundsFor id := by rw [refundsFor, hrefunds]; rfl
  refine ⟨hcount ▸ hs.once, ?_, ?_, ?_⟩
  · intro h
    obtain ⟨deleted, hcode⟩ := hs.used (hcount ▸ h)
    exact hused deleted hcode
  · intro h
    rw [hfor]
    exact hs.kept (hcount ▸ h)
  · intro h
    obtain ⟨status, hcode⟩ := hs.refunded (hfor ▸ h)
    exact hdeleted status hcode

theorem CodeOK.of_same (hs : s.CodeOK id) (hcredits : t.credits = s.credits)
    (hrefunds : t.refunds = s.refunds) (hcode : t.db.code id = s.db.code id) : t.CodeOK id :=
  hs.of_code hcredits hrefunds (fun deleted h => ⟨deleted, hcode.trans h⟩)
    fun status h => ⟨status, hcode.trans h⟩

theorem CodeOK.deleteRows (hs : s.CodeOK id) {rows : List Redemption}
    (hcurrent : ∀ r ∈ rows, r.status ≠ .used → ∀ deleted, s.db.code r.id ≠ some (.used, deleted))
    (hknown : ∀ r ∈ rows, ∃ c, s.db.code r.id = some c)
    (hdb : t.db = (s.db.deleteRows rows).2) (hcredits : t.credits = s.credits)
    (hrefunds : t.refunds = (s.db.deleteRows rows).1 ++ s.refunds) : t.CodeOK id := by
  have hcode : t.db.code id =
      if id ∈ rows.map (·.id) then (s.db.code id).map fun c => (c.1, true) else s.db.code id := by
    rw [hdb]
    exact RedemptionDB.code_deleteRows rows
  have hcount : t.creditCount id = s.creditCount id := by rw [creditCount, hcredits]; rfl
  -- a refund for this code comes from a row that was read as unused, and still is
  have hnew : ∀ f ∈ (s.db.deleteRows rows).1, f.code = id →
      s.creditCount id = 0 ∧ id ∈ rows.map (·.id) ∧ ∃ c, s.db.code id = some c := by
    intro f hf hid
    obtain ⟨r, hr, hrid, hstatus⟩ := RedemptionDB.mem_refundAll hf
    obtain rfl : r.id = id := hrid.trans hid
    refine ⟨?_, List.mem_map_of_mem hr, hknown r hr⟩
    by_contra hpos
    obtain ⟨deleted, hused⟩ := hs.used (Nat.pos_of_ne_zero hpos)
    exact hcurrent r hr hstatus deleted hused
  refine ⟨hcount ▸ hs.once, ?_, ?_, ?_⟩
  · intro h
    obtain ⟨deleted, hused⟩ := hs.used (hcount ▸ h)
    rw [hcode, hused]
    split
    · exact ⟨true, rfl⟩
    · exact ⟨deleted, rfl⟩
  · intro h
    rw [refundsFor, hrefunds, List.filter_append, List.append_eq_nil_iff]
    refine ⟨?_, hs.kept (hcount ▸ h)⟩
    rw [List.filter_eq_nil_iff]
    intro f hf hid
    have hzero := (hnew f hf (by simpa using hid)).1
    omega
  · intro h
    rw [refundsFor, hrefunds, List.filter_append] at h
    by_cases hold : s.refundsFor id = []
    · have hhead : ((s.db.deleteRows rows).1.filter fun r => r.code = id) ≠ [] := by
        intro hnil
        rw [refundsFor] at hold
        exact h (by rw [hnil, hold, List.append_nil])
      obtain ⟨f, hf⟩ := List.exists_mem_of_ne_nil _ hhead
      obtain ⟨hmem, hid⟩ := List.mem_filter.mp hf
      obtain ⟨-, hin, c, hc⟩ := hnew f hmem (by simpa using hid)
      rw [hcode, if_pos hin, hc]
      exact ⟨c.1, rfl⟩
    · obtain ⟨status, hdeleted⟩ := hs.refunded hold
      rw [hcode, hdeleted]
      split <;> exact ⟨status, rfl⟩

variable {db : RedemptionDB}

theorem known_deleteRows (rows : List Redemption) (hc : db.code id = some c) :
    ∃ c', (db.deleteRows rows).2.code id = some c' := by
  rw [RedemptionDB.code_deleteRows, hc]
  split
  · exact ⟨_, rfl⟩
  · exact ⟨_, rfl⟩

theorem step_known (hc : s.db.code id = some c) (h : step s a = some t) :
    ∃ c', t.db.code id = some c' := by
  cases step_cases h with
  | add hcharge hcreate => exact ⟨c, RedemptionDB.code_create hcreate hc⟩
  | @redeem key userId now r db hredeem =>
    obtain ⟨-, hused, hother⟩ := RedemptionDB.redeem_some hredeem
    by_cases hid : id = r.id
    · exact ⟨_, hid ▸ hused⟩
    · exact ⟨c, (hother id hid).trans hc⟩
  | editRead hread => exact ⟨c, hc⟩
  | @editWrite i copy hcopy =>
    rcases @RedemptionDB.code_update s.db id copy with hsame | ⟨-, -, hwritten⟩
    · exact ⟨c, hsame.trans hc⟩
    · exact ⟨_, hwritten⟩
  | deleteByIds ids => exact known_deleteRows _ hc
  | readInvalid now => exact ⟨c, hc⟩
  | deleteInvalid hrows => exact known_deleteRows _ hc
  | batchDelete ids =>
    have hcode := @RedemptionDB.code_softDelete s.db id ids
    rw [hc] at hcode
    split at hcode <;> exact ⟨_, hcode⟩
  | users ha => exact ⟨c, hc⟩

/-- The rows a sweep has read are there. -/
def Known (s : RedemptionSystem) : Prop :=
  ∀ rows ∈ s.sweeps, ∀ r ∈ rows, ∃ c, s.db.code r.id = some c

theorem mem_sweeps_of_step (h : step s a = some t) {rows : List Redemption}
    (hrows : rows ∈ t.sweeps) : rows ∈ s.sweeps ∨ ∃ now, rows = s.db.invalidRows now := by
  cases step_cases h with
  | readInvalid now =>
    rcases List.mem_append.mp hrows with hold | hnew
    · exact .inl hold
    · exact .inr ⟨now, List.mem_singleton.mp hnew⟩
  | deleteInvalid => exact .inl (List.mem_of_mem_eraseIdx hrows)
  | _ => exact .inl hrows

theorem known_rows {p : Redemption → Bool} (h : r ∈ db.redemptions.rows.filter p) :
    db.code r.id = some (r.status, r.deleted) :=
  RedemptionDB.code_of_find (Table.find_of_mem (List.mem_filter.mp h).1)

theorem known_step (hs : s.Known) (h : step s a = some t) : t.Known := by
  intro rows hrows r hr
  rcases mem_sweeps_of_step h hrows with hold | ⟨now, rfl⟩
  · obtain ⟨c, hc⟩ := hs rows hold r hr
    exact step_known hc h
  · exact step_known (known_rows hr) h

theorem CodeOK.redeem (hs : s.CodeOK id) (hredeem : s.db.redeem key userId now = some (r, db)) :
    CodeOK { s with db := db, credits := (r.id, userId) :: s.credits } id := by
  obtain ⟨henabled, hused, hother⟩ := RedemptionDB.redeem_some hredeem
  by_cases hid : id = r.id
  · subst hid
    -- an enabled code was not credited before, a live one not refunded
    have hcount : s.creditCount r.id = 0 := by
      by_contra hpos
      obtain ⟨deleted, hcode⟩ := hs.used (Nat.pos_of_ne_zero hpos)
      simp [henabled] at hcode
    have hrefunds : s.refundsFor r.id = [] := by
      by_contra hne
      obtain ⟨status, hcode⟩ := hs.refunded hne
      simp [henabled] at hcode
    refine ⟨?_, fun _ => ⟨false, hused⟩, fun _ => hrefunds, fun h => absurd hrefunds h⟩
    have hone : creditCount { s with db := db, credits := (r.id, userId) :: s.credits } r.id =
        s.creditCount r.id + 1 := by
      simp [creditCount]
    omega
  · have hcode := hother id hid
    have hcount : creditCount { s with db := db, credits := (r.id, userId) :: s.credits } id =
        s.creditCount id := by
      have hne : ¬r.id = id := fun h => hid h.symm
      simp [creditCount, hne]
    refine ⟨hcount ▸ hs.once, ?_, ?_, ?_⟩
    · intro h
      obtain ⟨deleted, hold⟩ := hs.used (hcount ▸ h)
      exact ⟨deleted, hcode.trans hold⟩
    · intro h
      exact hs.kept (hcount ▸ h)
    · intro h
      obtain ⟨status, hold⟩ := hs.refunded h
      exact ⟨status, hcode.trans hold⟩

theorem CodeOK.editWrite {i : Nat} {copy : Redemption} (hs : s.CodeOK id)
    (hcopy : s.edits[i]? = some copy) (hcurrent : s.Current (.editWrite i)) :
    CodeOK { s with db := s.db.update copy, edits := s.edits.eraseIdx i } id := by
  rcases @RedemptionDB.code_update s.db id copy with hsame | ⟨rfl, ⟨status, hlive⟩, hwritten⟩
  · exact hs.of_same rfl rfl hsame
  · refine hs.of_code rfl rfl ?_ ?_
    · intro deleted hused
      obtain ⟨rfl, rfl⟩ : status = .used ∧ false = deleted := by simpa [hlive] using hused
      have hstatus := hcurrent copy hcopy hused
      exact ⟨false, hstatus ▸ hwritten⟩
    · intro status' hdeleted
      simp [hlive] at hdeleted

/-- **A step that acts on no outdated copy keeps what is known of a code.** -/
theorem codeOK_step (hs : s.CodeOK id) (hknown : s.Known) (hcurrent : s.Current a)
    (h : step s a = some t) : t.CodeOK id := by
  cases step_cases h with
  | add hcharge hcreate =>
    exact hs.of_code rfl rfl (fun deleted hc => ⟨deleted, RedemptionDB.code_create hcreate hc⟩)
      fun status hc => ⟨status, RedemptionDB.code_create hcreate hc⟩
  | redeem hredeem => exact hs.redeem hredeem
  | editRead hread => exact hs.of_same rfl rfl rfl
  | editWrite hcopy => exact hs.editWrite hcopy hcurrent
  | deleteByIds ids =>
    refine hs.deleteRows ?_ (fun r hr => ⟨_, known_rows hr⟩) rfl rfl rfl
    intro r hr hstatus deleted hcode
    rw [known_rows hr] at hcode
    simp only [Option.some.injEq, Prod.mk.injEq] at hcode
    exact hstatus hcode.1
  | readInvalid now => exact hs.of_same rfl rfl rfl
  | deleteInvalid hrows =>
    exact hs.deleteRows (hcurrent _ hrows) (hknown _ (List.mem_of_getElem? hrows)) rfl rfl rfl
  | batchDelete ids =>
    refine hs.of_code rfl rfl ?_ ?_
    · intro deleted hused
      show ∃ deleted', (s.db.softDelete ids).code id = some (.used, deleted')
      rw [RedemptionDB.code_softDelete, hused]
      split <;> exact ⟨_, rfl⟩
    · intro status hdeleted
      show ∃ status', (s.db.softDelete ids).code id = some (status', true)
      rw [RedemptionDB.code_softDelete, hdeleted]
      split <;> exact ⟨_, rfl⟩
  | users ha => exact hs.of_same rfl rfl rfl

/-! ### A whole run -/

/--
**A code is credited at most once, and never both credited and refunded**, in every run that
acts on no outdated copy.
-/
theorem credited_or_refunded {db : RedemptionDB} {acts : List RedemptionAct}
    (hcurrent : Machine.Meets step Current (start db) acts)
    (hrun : Machine.run step (start db) acts = some t) :
    t.creditCount id ≤ 1 ∧ (0 < t.creditCount id → t.refundsFor id = []) := by
  have hstep : ∀ s a t, (CodeOK s id ∧ Known s) → Current s a → step s a = some t →
      CodeOK t id ∧ Known t :=
    fun s a t hs hc h => ⟨codeOK_step hs.1 hs.2 hc h, known_step hs.2 h⟩
  have hstart : CodeOK (start db) id ∧ Known (start db) := by
    refine ⟨⟨Nat.zero_le _, fun h => absurd h (by simp [start, creditCount]), fun _ => rfl,
      fun h => absurd rfl h⟩, ?_⟩
    intro rows hrows
    simp [start] at hrows
  have ht := Machine.run_invariant (fun s => CodeOK s id ∧ Known s) hstep acts (start db) t
    hstart hcurrent hrun
  exact ⟨ht.1.once, ht.1.kept⟩

/-- An administrator, an agent with a discount of 50 and two users; one code of quota 10. -/
def sampleCodes : RedemptionDB where
  redemptions := ⟨[⟨1, 1, "code", .enabled, "gift", 10, 0, 0, 0, 0, 0, false⟩], by decide⟩
  users := ⟨[⟨1, 0, 10, false, 100⟩, ⟨2, 100, 1, true, 50⟩, ⟨3, 0, 1, false, 100⟩,
    ⟨4, 0, 1, false, 100⟩], by decide⟩

def sampleRename : RedemptionEdit := ⟨"present", 10, 0, none⟩

theorem credited_or_refunded_sample : ∃ t,
    Machine.run step (start sampleCodes)
      [.editRead 1 sampleRename 0, .editWrite 0, .redeem "code" 3 0] = some t ∧
    t.creditCount 1 = 1 ∧ t.creditCount 1 ≤ 1 := by
  refine ⟨_, rfl, rfl, ?_⟩
  have hmeets : Machine.Meets step Current (start sampleCodes)
      [.editRead 1 sampleRename 0, .editWrite 0, .redeem "code" 3 0] := by
    refine ⟨trivial, fun s₁ h₁ => ⟨?_, fun s₂ _ => ⟨trivial, fun _ _ => trivial⟩⟩⟩
    cases h₁
    intro copy hcopy hused
    cases hcopy
    exact absurd hused (by decide)
  exact (@credited_or_refunded _ 1 sampleCodes _ hmeets rfl).1

/-- An edit of the name is read, the code is redeemed, the edit is written, and the code is
redeemed again. -/
theorem edit_revives_code : ∃ t,
    Machine.run step (start sampleCodes)
      [.editRead 1 sampleRename 0, .redeem "code" 3 0, .editWrite 0, .redeem "code" 4 0] =
        some t ∧
    ¬t.creditCount 1 ≤ 1 :=
  ⟨_, rfl, by decide⟩

end RedemptionSystem

end JulongApi
