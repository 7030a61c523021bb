/-
**Sessions lead their stores through operations.**

A session answers requests, and what a request does to the store is one operation, several refreshes
one after the other, or nothing.  So whatever is shown of the stores that operations lead to holds
of the store of every session, whatever was asked of it, and whether the requests succeeded or not.
Left aside are only the requests for whoever watches a session, which write single rows past the
rules.

Main definitions:

* `Anthology.Store.Leads` — operations lead from one store to another;
* `Anthology.Request.forces` — the requests that write past the rules;
* `Anthology.Session.Reached` — the sessions that requests lead to.

Main results:

* `Anthology.Session.carryOut_leads` — the upkeep performs operations only;
* `Anthology.Session.answer_leads` — **a request performs operations only**;
* `Anthology.Session.Reached.reachable` — the store of a session is one that operations lead to.
-/

import Anthology.Proofs.Operation
import Anthology.Session.Answer

set_option relaxedAutoImplicit false
set_option autoImplicit false

namespace Anthology

open Relation (ReflTransGen)

/-! ### From store to store -/

namespace Store

/-- Operations lead from the one store to the other. -/
def Leads [Arithmetic] (s t : Store) : Prop :=
  ReflTransGen (fun s t => ∃ op : Operation, op.run s = .ok t) s t

variable {s t u : Store}

theorem Leads.refl [Arithmetic] (s : Store) : s.Leads s := ReflTransGen.refl

theorem Leads.trans [Arithmetic] (h : s.Leads t)
    (h' : t.Leads u) : s.Leads u := ReflTransGen.trans h h'

theorem Leads.of_run [Arithmetic] (op : Operation) (h : op.run s = .ok t) : s.Leads t :=
  ReflTransGen.single ⟨op, h⟩

/-- An operation leads to the store that comes with its outcome. -/
theorem Leads.of_result [Arithmetic] {α : Type} {x : Except Fault (α × Store)} {a : α}
    (op : Operation)
    (hop : op.run s = x.map Prod.snd) (h : x = .ok (a, t)) : s.Leads t := by
  refine .of_run op ?_
  rw [hop, h]
  rfl

theorem Reachable.leads [Arithmetic] (h : s.Reachable) (hl : s.Leads t) : t.Reachable := by
  induction hl with
  | refl => exact h
  | tail _ hstep ih =>
      obtain ⟨op, hrun⟩ := hstep
      exact ih.step op hrun

end Store

/-- The requests that write single rows past the rules. -/
def Request.forces : Request → Bool
  | forceItem _ | forceKind .. | forceLink .. => true
  | _ => false

namespace Session

variable {n m : Session} {reply : Reply}

/-! ### One step on the store -/

theorem edit_eq_ok {α : Type} {ids : α → ℕ} {f : Store → Except Fault (α × Store)} {a : α} :
    n.edit ids f = .ok (a, m) ↔ n.writable = .ok () ∧
      ∃ t, f n.store = .ok (a, t) ∧ m = { n with store := t, ids := n.ids.take (ids a) } := by
  simp only [edit, bind_eq_ok, Prod.exists, pure_eq_ok, Prod.mk.injEq]
  constructor
  · rintro ⟨_, hwritable, _, t, ht, rfl, rfl⟩
    exact ⟨hwritable, t, ht, rfl⟩
  · rintro ⟨hwritable, t, ht, rfl⟩
    exact ⟨(), hwritable, a, t, ht, rfl, rfl⟩

/-- What an edit reports is what its step on the store reports. -/
theorem edit_run {α : Type} {ids : α → ℕ} {f : Store → Except Fault (α × Store)} {a : α}
    (h : n.edit ids f = .ok (a, m)) : f n.store = .ok (a, m.store) := by
  obtain ⟨-, t, ht, rfl⟩ := edit_eq_ok.1 h
  exact ht

theorem edit_run_unit {ids : Unit → ℕ} {f : Store → Except Fault Store}
    (h : n.edit ids (fun s => do return ((), ← f s)) = .ok ((), m)) :
    f n.store = .ok m.store := by
  obtain ⟨t, ht, hpure⟩ := bind_eq_ok.1 (edit_run h)
  cases pure_eq_ok.1 hpure
  exact ht

theorem edit_announced {α : Type} {ids : α → ℕ} {f : Store → Except Fault (α × Store)} {x : α}
    (h : n.edit ids f = .ok (x, m)) : m.announced = n.announced := by
  obtain ⟨-, t, -, rfl⟩ := edit_eq_ok.1 h
  rfl

/-- An edit performs the operation whose outcome it computes. -/
theorem edit_leads [Arithmetic] {α : Type} {ids : α → ℕ} {f : Store → Except Fault (α × Store)}
    {a : α}
    (op : Operation) (hop : op.run n.store = (f n.store).map Prod.snd)
    (h : n.edit ids f = .ok (a, m)) : n.store.Leads m.store :=
  .of_result op hop (edit_run h)

/-- An operation that answers with nothing but the store. -/
theorem eq_map_snd (x : Except Fault Store) :
    x = Except.map Prod.snd (do return ((), ← x)) := by
  cases x <;> rfl

@[simp] theorem announce_store (n : Session) (e : Event) : (n.announce e).store = n.store := rfl

@[simp] theorem announceAll_store (n : Session) (es : List Event) :
    (n.announceAll es).store = n.store := by
  induction es generalizing n with
  | nil => rfl
  | cons e es ih => exact ih (n.announce e)

theorem announceAll_announced (n : Session) (es : List Event) :
    (n.announceAll es).announced = es.reverse ++ n.announced := by
  induction es generalizing n with
  | nil => rfl
  | cons e es ih =>
      refine (ih (n.announce e)).trans ?_
      rw [List.reverse_cons, List.append_assoc]
      rfl

@[simp] theorem logAll_store (n : Session) (entries : List LogEntry) :
    (n.logAll entries).store = n.store := by
  induction entries generalizing n with
  | nil => rfl
  | cons entry entries ih => exact ih (n.log entry)

/-! ### Upkeep -/

theorem refreshOnce_leads [Arithmetic] (n : Session) (a : Id) : n.store.Leads
    (n.refreshOnce a).2.store := by
  unfold refreshOnce
  split
  · exact .refl _
  · split
    · exact .refl _
    · split
      · rename_i o t hrefresh
        exact .of_result (.refresh n.now n.ids.id a) rfl hrefresh
      · exact .refl _

theorem carryOut_attempt [Arithmetic] {α : Type} (n : Session) (a : Id)
    (next : Except Fault RefreshOutcome → Routine α) : n.carryOut (.attempt a next) =
      if brokeOff (n.refreshOnce a).1 then (none, (n.refreshOnce a).2)
      else (n.refreshOnce a).2.carryOut (next (n.refreshOnce a).1) := rfl

/-- **The upkeep performs operations only**, however its attempts end. -/
theorem carryOut_leads [Arithmetic] {α : Type} (n : Session) (r : Routine α) :
    n.store.Leads (n.carryOut r).2.store := by
  induction r generalizing n with
  | done a => exact .refl _
  | attempt a next ih =>
      rw [carryOut_attempt]
      split
      · exact n.refreshOnce_leads a
      · exact (n.refreshOnce_leads a).trans (ih _ _)
  | pause span next ih => exact ih _ _
  | unlessCancelled next ih => exact ih _ _
  | announce e next ih => exact ih (n.announce e)
  | report entry next ih => exact ih (n.log entry)

theorem respond_leads [Arithmetic] (n : Session) (authorities : List Id) :
    n.store.Leads (n.respond authorities).store := by
  induction authorities generalizing n with
  | nil => exact .refl _
  | cons a authorities ih =>
      refine .trans ?_ (ih _)
      show n.store.Leads (if n.halted then n else n.attend a).store
      split
      · exact .refl _
      · exact n.carryOut_leads _

/-! ### Collections and slots -/

theorem createCollection_leads [Arithmetic] {d : CollectionDraft}
    (h : n.createCollection d = .ok (reply, m)) :
    n.store.Leads m.store := by
  simp only [createCollection, bind_eq_ok, Prod.exists, pure_eq_ok, Prod.mk.injEq] at h
  obtain ⟨_, -, _, -, _, k, hedit, -, rfl⟩ := h
  rw [announce_store]
  exact edit_leads (.createCollection _) (eq_map_snd _) hedit

theorem updateCollection_leads [Arithmetic] {d : CollectionDraft}
    (h : n.updateCollection d = .ok (reply, m)) :
    n.store.Leads m.store := by
  simp only [updateCollection, bind_eq_ok, Prod.exists, pure_eq_ok, Prod.mk.injEq] at h
  obtain ⟨_, -, _, k, hedit, -, rfl⟩ := h
  rw [announce_store]
  exact edit_leads (.updateCollection n.now _) (eq_map_snd _) hedit

theorem deleteCollection_leads [Arithmetic] {id : Id} (h : n.deleteCollection id = .ok (reply, m)) :
    n.store.Leads m.store := by
  simp only [deleteCollection, bind_eq_ok, Prod.exists, pure_eq_ok, Prod.mk.injEq] at h
  obtain ⟨_, k, hedit, -, rfl⟩ := h
  rw [announceAll_store]
  exact edit_leads (.deleteCollection n.now id) rfl hedit

theorem editSlot_run {ids : ℕ} {f : Store → Except Fault (Slot × Store)}
    (h : n.editSlot ids f = .ok (reply, m)) :
    ∃ x, reply = .slot x ∧ f n.store = .ok (x, m.store) := by
  simp only [editSlot, bind_eq_ok, Prod.exists, pure_eq_ok, Prod.mk.injEq] at h
  obtain ⟨x, k, hedit, rfl, rfl⟩ := h
  refine ⟨x, rfl, ?_⟩
  rw [announce_store]
  exact edit_run hedit

theorem editSlot_leads [Arithmetic] {ids : ℕ} {f : Store → Except Fault (Slot × Store)}
    (op : Operation)
    (hop : op.run n.store = (f n.store).map Prod.snd) (h : n.editSlot ids f = .ok (reply, m)) :
    n.store.Leads m.store := by
  obtain ⟨x, -, hrun⟩ := editSlot_run h
  exact .of_result op hop hrun

theorem removeItem_leads [Arithmetic] {id : Id} (h : n.removeItem id = .ok (reply, m)) :
    n.store.Leads m.store := by
  obtain ⟨found, -, h⟩ := bind_eq_ok.1 h
  cases found with
  | none =>
      cases pure_eq_ok.1 h
      exact .refl _
  | some slot =>
      simp only [bind_eq_ok, Prod.exists, pure_eq_ok, Prod.mk.injEq] at h
      obtain ⟨_, k, hedit, -, rfl⟩ := h
      rw [announceAll_store]
      exact edit_leads (.removeItem n.now id) rfl hedit

theorem editOrder_run {c : Id} {announced : Bool} {f : Store → Except Fault (List Slot × Store)}
    (h : n.editOrder c announced f = .ok (reply, m)) :
    ∃ xs, reply = .slots xs ∧ f n.store = .ok (xs, m.store) := by
  simp only [editOrder, bind_eq_ok, Prod.exists, pure_eq_ok, Prod.mk.injEq] at h
  obtain ⟨xs, k, hedit, rfl, rfl⟩ := h
  refine ⟨xs, rfl, ?_⟩
  rw [announceAll_store]
  exact edit_run hedit

theorem editOrder_leads [Arithmetic] {c : Id} {announced : Bool}
    {f : Store → Except Fault (List Slot × Store)}
    (op : Operation) (hop : op.run n.store = (f n.store).map Prod.snd)
    (h : n.editOrder c announced f = .ok (reply, m)) : n.store.Leads m.store := by
  obtain ⟨xs, -, hrun⟩ := editOrder_run h
  exact .of_result op hop hrun

theorem transplant_leads [Arithmetic] {item dest : Id} {rank : Int}
    (h : n.transplant item dest rank = .ok (reply, m)) : n.store.Leads m.store := by
  simp only [transplant, bind_eq_ok, Prod.exists, pure_eq_ok, Prod.mk.injEq] at h
  obtain ⟨_, -, _, k, hedit, -, rfl⟩ := h
  rw [announce_store]
  exact edit_leads (.transplant n.now item dest rank) rfl hedit

/-! ### Collections made in place, and counts -/

theorem editPlaced_run {parent : Id} {f : Store → Except Fault (Placed × Store)}
    (h : n.editPlaced parent f = .ok (reply, m)) :
    ∃ p, reply = .placed p ∧ f n.store = .ok (p, m.store) := by
  simp only [editPlaced, bind_eq_ok, Prod.exists, pure_eq_ok, Prod.mk.injEq] at h
  obtain ⟨p, k, hedit, rfl, rfl⟩ := h
  refine ⟨p, rfl, ?_⟩
  rw [announceAll_store]
  exact edit_run hedit

theorem editPlaced_leads [Arithmetic] {parent : Id} {f : Store → Except Fault (Placed × Store)}
    (op : Operation)
    (hop : op.run n.store = (f n.store).map Prod.snd)
    (h : n.editPlaced parent f = .ok (reply, m)) : n.store.Leads m.store := by
  obtain ⟨p, -, hrun⟩ := editPlaced_run h
  exact .of_result op hop hrun

theorem createSubCollection_leads [Arithmetic] {parent : Id} {title : String}
    {kind : CollectionKind}
    (h : n.createSubCollection parent title kind = .ok (reply, m)) : n.store.Leads m.store := by
  obtain ⟨_, -, h⟩ := bind_eq_ok.1 h
  exact editPlaced_leads (.createSubCollection n.now n.ids.id parent title kind) rfl h

theorem createPeriodicalWithIssue_leads [Arithmetic] {title issueTitle : String}
    (h : n.createPeriodicalWithIssue title issueTitle = .ok (reply, m)) :
    n.store.Leads m.store := by
  simp only [createPeriodicalWithIssue, bind_eq_ok, Prod.exists, pure_eq_ok, Prod.mk.injEq] at h
  obtain ⟨_, -, _, k, hedit, -, rfl⟩ := h
  rw [announceAll_store]
  exact edit_leads (.createPeriodicalWithIssue n.now n.ids.id title issueTitle) rfl hedit

theorem recalculate_leads [Arithmetic] {c : Id} (h : n.recalculate c = .ok (reply, m)) :
    n.store.Leads m.store := by
  simp only [recalculate, bind_eq_ok, Prod.exists, pure_eq_ok, Prod.mk.injEq] at h
  obtain ⟨_, k, hedit, -, rfl⟩ := h
  rw [announce_store, logAll_store]
  exact edit_leads (.recalculate n.now c) rfl hedit

theorem recalculateAll_leads [Arithmetic] (h : n.recalculateAll = .ok (reply, m)) :
    n.store.Leads m.store := by
  simp only [recalculateAll, bind_eq_ok, Prod.exists, pure_eq_ok, Prod.mk.injEq] at h
  obtain ⟨_, _, k, hedit, -, rfl⟩ := h
  rw [logAll_store]
  exact edit_leads (.recalculateAll n.now) rfl hedit

/-! ### Works, authorities and credits -/

theorem createManifestation_leads [Arithmetic] {d : ManifestationDraft}
    (h : n.createManifestation d = .ok (reply, m)) : n.store.Leads m.store := by
  simp only [createManifestation, bind_eq_ok, Prod.exists, pure_eq_ok, Prod.mk.injEq] at h
  obtain ⟨_, -, _, k, hedit, -, rfl⟩ := h
  exact edit_leads (.createManifestation _) (eq_map_snd _) hedit

/-- Writing a work is a step like any other. -/
theorem writeManifestation_eq_ok {d : ManifestationDraft} {id : Id}
    (h : n.writeManifestation d = .ok (id, m)) :
    id = (d.complete (n.ids.id 0) n.now).id ∧
      n.edit (fun _ => idsFor d.id) (fun s => do
        return ((), ← s.updateManifestation n.now (d.complete (n.ids.id 0) n.now))) =
          .ok ((), m) := by
  simp only [writeManifestation, bind_eq_ok, Prod.exists, pure_eq_ok, Prod.mk.injEq] at h
  obtain ⟨_, -, _, k, hedit, rfl, rfl⟩ := h
  exact ⟨rfl, hedit⟩

/-- What follows the step is read and announced, and writes nothing. -/
theorem updateManifestation_leads [Arithmetic] (n : Session) (d : ManifestationDraft) :
    n.store.Leads (n.updateManifestation d).2.store := by
  unfold updateManifestation
  split
  · exact .refl _
  · rename_i id m hwrite
    have hleads : n.store.Leads m.store :=
      edit_leads (.updateManifestation n.now _) (eq_map_snd _) (writeManifestation_eq_ok hwrite).2
    split
    · exact hleads
    · rw [announceAll_store]
      exact hleads

theorem createAuthority_leads [Arithmetic] {d : AuthorityDraft}
    (h : n.createAuthority d = .ok (reply, m)) :
    n.store.Leads m.store := by
  simp only [createAuthority, bind_eq_ok, Prod.exists, pure_eq_ok, Prod.mk.injEq] at h
  obtain ⟨_, -, _, k, hedit, -, rfl⟩ := h
  exact edit_leads (.createAuthority _) (eq_map_snd _) hedit

theorem updateAuthority_leads [Arithmetic] {d : AuthorityDraft}
    (h : n.updateAuthority d = .ok (reply, m)) :
    n.store.Leads m.store := by
  simp only [updateAuthority, bind_eq_ok, Prod.exists, pure_eq_ok, Prod.mk.injEq] at h
  obtain ⟨_, -, _, k, hedit, -, rfl⟩ := h
  exact edit_leads (.updateAuthority n.now _) (eq_map_snd _) hedit

theorem addInvolvement_leads [Arithmetic] {a w : Id} {role : Role} {quiet : Bool}
    (h : n.addInvolvement a w role quiet = .ok (reply, m)) : n.store.Leads m.store := by
  simp only [addInvolvement, bind_eq_ok, Prod.exists, pure_eq_ok, Prod.mk.injEq] at h
  obtain ⟨_, k, hedit, -, rfl⟩ := h
  rw [announceAll_store]
  exact edit_leads (.addInvolvement _) (eq_map_snd _) hedit

theorem removeInvolvement_leads [Arithmetic] {a w : Id} {role : Role} {quiet : Bool}
    (h : n.removeInvolvement a w role quiet = .ok (reply, m)) : n.store.Leads m.store := by
  simp only [removeInvolvement, bind_eq_ok, Prod.exists, pure_eq_ok, Prod.mk.injEq] at h
  obtain ⟨_, k, hedit, -, rfl⟩ := h
  rw [announceAll_store]
  exact edit_leads (.removeInvolvement a w role) rfl hedit

theorem refresh_leads [Arithmetic] {a : Id}
    (h : n.refresh a = .ok (reply, m)) : n.store.Leads m.store := by
  simp only [refresh, bind_eq_ok, pure_eq_ok, Prod.mk.injEq] at h
  obtain ⟨o, -, -, rfl⟩ := h
  exact n.refreshOnce_leads a

theorem refreshMany_leads [Arithmetic] (n : Session) (as : List Id) :
    n.store.Leads (n.refreshMany as).2.store := by
  unfold refreshMany
  have hleads := n.carryOut_leads (n.settings.maintainer.retryAll as)
  split <;> rename_i hcarried <;> rwa [hcarried] at hleads

theorem cleanup_leads [Arithmetic] (n : Session) (mode : CleanupMode) :
    n.store.Leads (n.cleanup mode).2.store := by
  unfold cleanup
  split
  · exact .refl _
  · dsimp only
    split
    · rw [logAll_store]
      exact .refl _
    · rename_i report t hrun
      exact .of_result (.cleanup n.now mode) rfl hrun

/-! ### Requests -/

/-- A request that fails leaves the store, so only its success has to be looked at. -/
theorem settle_leads [Arithmetic] {x : Except Fault (Reply × Session)}
    (h : ∀ reply m, x = .ok (reply, m) → n.store.Leads m.store) :
    n.store.Leads (n.settle x).2.store := by
  cases x with
  | error fault => exact .refl _
  | ok p => exact h p.1 p.2 rfl

/-- **A request performs operations only**, unless it opens the session anew. -/
theorem answer_leads [Arithmetic] (n : Session) {r : Request} (hr : r.forces = false)
    (hopen : r ≠ .reopen) :
    n.store.Leads (n.answer r).2.store := by
  cases r
  case createCollection d => exact settle_leads fun _ _ h => createCollection_leads h
  case updateCollection d => exact settle_leads fun _ _ h => updateCollection_leads h
  case deleteCollection id => exact settle_leads fun _ _ h => deleteCollection_leads h
  case addItem c r attrs =>
      exact settle_leads fun _ _ h =>
        editSlot_leads (.addItem n.now (n.ids.id 0) c r attrs) rfl h
  case updateItem id attrs =>
      exact settle_leads fun _ _ h => editSlot_leads (.updateItem n.now id attrs) rfl h
  case retargetItem id r =>
      exact settle_leads fun _ _ h => editSlot_leads (.retargetItem n.now id r) rfl h
  case removeItem id => exact settle_leads fun _ _ h => removeItem_leads h
  case reorder c id old new =>
      exact settle_leads fun _ _ h => editOrder_leads (.reorder n.now c id old new) rfl h
  case moveItem direction c id =>
      exact settle_leads fun _ _ h => editOrder_leads (.moveItem n.now direction c id) rfl h
  case transplant id dest rank => exact settle_leads fun _ _ h => transplant_leads h
  case addPeriodicalIssue c title =>
      exact settle_leads fun _ _ h =>
        editPlaced_leads (.addPeriodicalIssue n.now n.ids.id c title) rfl h
  case createSubCollection c title kind =>
      exact settle_leads fun _ _ h => createSubCollection_leads h
  case createPeriodicalWithIssue title issue =>
      exact settle_leads fun _ _ h => createPeriodicalWithIssue_leads h
  case recalculate c => exact settle_leads fun _ _ h => recalculate_leads h
  case recalculateAll => exact settle_leads fun _ _ h => recalculateAll_leads h
  case createManifestation d => exact settle_leads fun _ _ h => createManifestation_leads h
  case updateManifestation d => exact n.updateManifestation_leads d
  case createAuthority d => exact settle_leads fun _ _ h => createAuthority_leads h
  case addInvolvement a w role => exact settle_leads fun _ _ h => addInvolvement_leads h
  case removeInvolvement a w role => exact settle_leads fun _ _ h => removeInvolvement_leads h
  case refresh a => exact settle_leads fun _ _ h => refresh_leads h
  case refreshMany as => exact n.refreshMany_leads as
  case cleanup mode => exact n.cleanup_leads mode
  case addInvolvementQuietly a w role => exact settle_leads fun _ _ h => addInvolvement_leads h
  case removeInvolvementQuietly a w role =>
      exact settle_leads fun _ _ h => removeInvolvement_leads h
  case appendMany c rs =>
      refine settle_leads fun reply m h => ?_
      simp only [bind_eq_ok, Prod.exists, pure_eq_ok, Prod.mk.injEq] at h
      obtain ⟨_, k, hedit, -, rfl⟩ := h
      exact edit_leads (.appendMany n.now n.ids.id c rs) rfl hedit
  case deleteManifestation id =>
      refine settle_leads fun reply m h => ?_
      simp only [bind_eq_ok, Prod.exists, pure_eq_ok, Prod.mk.injEq] at h
      obtain ⟨_, k, hedit, -, rfl⟩ := h
      exact edit_leads (.deleteManifestation n.now id) rfl hedit
  case deleteAuthority id =>
      refine settle_leads fun reply m h => ?_
      simp only [bind_eq_ok, Prod.exists, pure_eq_ok, Prod.mk.injEq] at h
      obtain ⟨_, k, hedit, -, rfl⟩ := h
      exact edit_leads (.deleteAuthority id) rfl hedit
  case updateAuthority d => exact settle_leads fun _ _ h => updateAuthority_leads h
  case resolveTitle x =>
      rw [answer]
      split <;> exact .refl _
  case findReferencing r =>
      rw [answer]
      split <;> exact .refl _
  case reopen => exact absurd rfl hopen
  case forceItem | forceKind | forceLink => cases hr
  all_goals exact .refl _

/-! ### Sessions that are reached -/

/-- A session over memory that is opened anew begins with the store without rows. -/
theorem answer_reachable [Arithmetic] (h : n.store.Reachable) {r : Request}
    (hr : r.forces = false) :
    (n.answer r).2.store.Reachable := by
  by_cases hopen : r = .reopen
  · subst hopen
    show (if n.volatile then Store.empty else n.store).Reachable
    split
    · exact .empty
    · exact h
  · exact h.leads (n.answer_leads hr hopen)

theorem answerAll_reachable [Arithmetic] (h : n.store.Reachable) {last : Reply} {rs : List Request}
    (hrs : ∀ r ∈ rs, r.forces = false) : (n.answerAll last rs).2.store.Reachable := by
  induction rs generalizing n last with
  | nil => exact h
  | cons r rs ih =>
      have hfirst := answer_reachable h (hrs r List.mem_cons_self)
      rw [answerAll]
      split
      · rename_i reply k hanswer
        rw [hanswer] at hfirst
        exact ih hfirst fun r hr => hrs r (List.mem_cons_of_mem _ hr)
      · rename_i fault k hanswer
        rw [hanswer] at hfirst
        exact hfirst

theorem stepAll_reachable [Arithmetic] (h : n.store.Reachable) (now : Time) {rs : List Request}
    (hrs : ∀ r ∈ rs, r.forces = false) : (n.stepAll now rs).2.store.Reachable := by
  have hanswered : ({ n with now, announced := [], logged := [] } : Session).store.Reachable := h
  unfold stepAll
  dsimp only
  split
  · exact (answerAll_reachable hanswered hrs).leads (respond_leads _ _)
  · exact answerAll_reachable hanswered hrs

/-- A session begins with the store without rows, wherever it keeps it. -/
theorem start_store {settings : Settings} {descending : Bool}
    {outages : Time → Option StorageFault} (h : start settings descending outages = .ok n) :
    n.store = .empty := by
  unfold start at h
  split at h <;>
  · obtain ⟨volatile, -, h⟩ := bind_eq_ok.1 h
    cases pure_eq_ok.1 h
    rfl

/-- The sessions that requests lead to, with all that the upkeep does in the background. -/
inductive Reached [Arithmetic] : Session → Prop
  | start {n : Session} {settings : Settings} {descending : Bool}
      {outages : Time → Option StorageFault}
      (opened : Session.start settings descending outages = .ok n) : Reached n
  | step {n : Session} (h : Reached n) (now : Time) {rs : List Request}
      (ruled : ∀ r ∈ rs, r.forces = false) : Reached (n.stepAll now rs).2

/-- **The store of a session is one that operations lead to**, whatever was asked of it. -/
theorem Reached.reachable [Arithmetic] (h : n.Reached) : n.store.Reachable := by
  induction h with
  | start opened =>
      rw [start_store opened]
      exact .empty
  | step h now ruled ih => exact stepAll_reachable ih now ruled

end Session

end Anthology
