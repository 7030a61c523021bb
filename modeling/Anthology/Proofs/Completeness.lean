/-
**Complete stores stay complete.**

A store is complete when every authority's collection has a slot for each work that belongs there.
A new work or authority has no credits yet, and so asks for nothing.  Credits that come or go, and
works that are published or withdrawn, may ask for something new, but only of the authorities that
are announced; and when the upkeep in the background has answered the announcements, each of these
was refreshed, and no refresh took anything from the others.

Two things can come between.  The credits on a work that was written anew are read behind the step,
and where that read fails nobody is announced.  And the upkeep completes only what it gets to: it
leaves an authority as it is whose numbers ran out, and goes no further where that breaks it off.

Main definitions:

* `Anthology.Store.Complete` — no work lacks anywhere;
* `Anthology.Store.CompleteBut` — it may lack only with the listed authorities;
* `Anthology.Store.GetsTo` — the upkeep gets to an authority and has numbers for it;
* `Anthology.Request.catalogues` — the requests for works, authorities and credits;
* `Anthology.Session.Leaves` — what such a request leaves for the upkeep;
* `Anthology.Session.Answerable` — a request whose announcements the upkeep can all answer.

Main results:

* `Anthology.Session.Ready.leaves` — such a request announces whatever it leaves incomplete;
* `Anthology.Session.Ready.respond` — the upkeep completes what it gets to, and nothing else;
* `Anthology.Session.Ready.step` — what a request and the upkeep behind it leave, exactly;
* `Anthology.Session.Ready.stays_complete` — **complete stores stay complete**, and the upkeep
  answers each announcement once.
-/

import Anthology.Proofs.Worker

set_option relaxedAutoImplicit false
set_option autoImplicit false

namespace Anthology

/-! ### Complete stores -/

namespace Store

variable {s s' t : Store} {a : Authority} {b : Id} {ids : List Id} {now : Time}

/-- The collection of the authority has a slot for each published work that the authority is author,
translator or editor of and that no collection of another kind holds. -/
def CompleteFor (s : Store) (a : Authority) : Prop :=
  ∀ m ∈ s.manifestations.rows, m.status = Manifestation.published → s.Creator a.id m.id →
    ¬ s.Collected m.id → ∃ x ∈ s.bucketSlots a, x.item = .manifestation m.id

/-- No work lacks in the collection of any authority. -/
def Complete (s : Store) : Prop := ∀ a ∈ s.authorities.rows, s.CompleteFor a

instance : Decidable s.Complete :=
  inferInstanceAs (Decidable (∀ a ∈ s.authorities.rows, ∀ m ∈ s.manifestations.rows,
    m.status = Manifestation.published → s.Creator a.id m.id → ¬ s.Collected m.id →
      ∃ x ∈ s.bucketSlots a, x.item = .manifestation m.id))

/-- No work lacks, unless in the collections of the listed authorities. -/
def CompleteBut (s : Store) (ids : List Id) : Prop :=
  ∀ a ∈ s.authorities.rows, a.id ∉ ids → s.CompleteFor a

theorem SameView.completeFor (h : SameView s t a) (hs : s.CompleteFor a) : t.CompleteFor a := by
  intro m hm hstatus hcreator hcollected
  rw [h.manifestations] at hm
  rw [Creator, h.involvements] at hcreator
  rw [h.collected] at hcollected
  rw [h.bucket]
  exact hs m hm hstatus hcreator hcollected

theorem SameView.completeFor_iff (h : SameView s t a) (ha : a ∈ s.authorities.rows) :
    t.CompleteFor a ↔ s.CompleteFor a :=
  ⟨(h.symm ha).completeFor, h.completeFor⟩

/-- After a refresh no work lacks in the collection that the authority is linked to now. -/
theorem Filled.completeFor (h : Filled s a b s') : s'.CompleteFor (linkedRow now b a) := by
  intro m hm hstatus hcreator hcollected
  rw [h.manifestations] at hm
  rw [Creator, h.involvements] at hcreator
  rw [h.collected] at hcollected
  obtain ⟨x, hx, hitem⟩ := h.full m hm hstatus hcreator hcollected
  exact ⟨x, mem_orderedSlots.2 (mem_slotsOf.1 hx), hitem⟩

/-- The upkeep gets to the authority with the id when it answers the listed ones in their order,
because no refresh before breaks off, and there are numbers for what a refresh of it adds. -/
def GetsTo [Arithmetic] (s : Store) (ids : List Id) (id : Id) : Prop :=
  s.refreshes id = true ∧
    ∃ before after, ids = before ++ id :: after ∧ ∀ b ∈ before, s.breaksOff b = false

theorem not_getsTo_nil [Arithmetic] {id : Id} : ¬ s.GetsTo [] id := by
  rintro ⟨-, before, after, hids, -⟩
  simp at hids

theorem getsTo_cons [Arithmetic] {first id : Id} : s.GetsTo (first :: ids) id ↔
    s.refreshes id = true ∧ id = first ∨ s.breaksOff first = false ∧ s.GetsTo ids id := by
  constructor
  · rintro ⟨hrefreshes, before, after, hids, hsound⟩
    cases before with
    | nil => exact .inl ⟨hrefreshes, (List.cons.inj hids).1.symm⟩
    | cons b before =>
        obtain ⟨rfl, hrest⟩ := List.cons.inj hids
        obtain ⟨hfirst, hsound⟩ := List.forall_mem_cons.1 hsound
        exact .inr ⟨hfirst, hrefreshes, before, after, hrest, hsound⟩
  · rintro (⟨hrefreshes, rfl⟩ | ⟨hfirst, hrefreshes, before, after, rfl, hsound⟩)
    · exact ⟨hrefreshes, [], ids, rfl, nofun⟩
    · exact ⟨hrefreshes, first :: before, after, rfl, List.forall_mem_cons.2 ⟨hfirst, hsound⟩⟩

/-- Where no refresh breaks off the upkeep gets to all that are listed. -/
theorem getsTo_iff [Arithmetic] {id : Id} (h : ∀ id ∈ ids, s.breaksOff id = false) :
    s.GetsTo ids id ↔ id ∈ ids ∧ s.refreshes id = true := by
  constructor
  · rintro ⟨hrefreshes, before, after, rfl, -⟩
    exact ⟨List.mem_append_right _ List.mem_cons_self, hrefreshes⟩
  · rintro ⟨hid, hrefreshes⟩
    obtain ⟨before, after, rfl⟩ := List.append_of_mem hid
    exact ⟨hrefreshes, before, after, rfl, fun b hb => h b (List.mem_append_left _ hb)⟩

/-- The store `t` has the slots and collections of `s`, and works lack only with the listed
authorities. -/
structure AsksOnly (s t : Store) (ids : List Id) : Prop where
  slots : t.slots = s.slots
  collections : t.collections = s.collections
  complete : t.CompleteBut ids

theorem Complete.asksOnly_self (h : s.Complete) : s.AsksOnly s ids :=
  ⟨rfl, rfl, fun a ha _ => h a ha⟩

/-- Where slots and collections are as they were, works can lack only with authorities of which
something new is asked. -/
theorem Complete.asksOnly (h : s.Complete) (hslots : t.slots = s.slots)
    (hcollections : t.collections = s.collections)
    (hasked : ∀ a ∈ t.authorities.rows, a.id ∉ ids → ∀ m ∈ t.manifestations.rows,
      m.status = Manifestation.published → t.Creator a.id m.id →
        a ∈ s.authorities.rows ∧ m ∈ s.manifestations.rows ∧ s.Creator a.id m.id) :
    s.AsksOnly t ids := by
  refine ⟨hslots, hcollections, ?_⟩
  intro a ha hid m hm hstatus hcreator hcollected
  obtain ⟨ha, hm, hcreator⟩ := hasked a ha hid m hm hstatus hcreator
  rw [Collected, hslots, hcollections] at hcollected
  have hordered : t.orderedSlots = s.orderedSlots := by
    funext c
    rw [orderedSlots, orderedSlots, slotsOf, slotsOf, hslots]
  rw [bucketSlots, hordered, ← bucketSlots]
  exact h a ha m hm hstatus hcreator hcollected

/-- Nobody has a credit on a new work. -/
theorem Complete.putManifestation {w : Manifestation} (h : s.Complete) (hl : s.Lawful)
    (hput : s.putManifestation w = .ok t) : s.AsksOnly t ids := by
  obtain ⟨-, hnew, works, hrows, rfl⟩ := putManifestation_eq_ok.1 hput
  refine h.asksOnly rfl rfl fun a ha _ m hm _ hcreator => ⟨ha, ?_, hcreator⟩
  rcases List.mem_append.1 (hrows ▸ hm) with hm | hm
  · exact hm
  · rw [List.mem_singleton.1 hm] at hcreator
    obtain ⟨i, hi, -, hwork, -⟩ := hcreator
    have hthere := (hl.credit i hi).2
    rw [hwork, hnew] at hthere
    contradiction

/-- A new authority has no credit. -/
theorem Complete.putAuthority {w : Authority} (h : s.Complete) (hl : s.Lawful)
    (hput : s.putAuthority w = .ok t) : s.AsksOnly t ids := by
  obtain ⟨-, -, hnew, authorities, hrows, rfl⟩ := putAuthority_eq_ok.1 hput
  refine h.asksOnly rfl rfl fun a ha _ m hm _ hcreator => ⟨?_, hm, hcreator⟩
  rcases List.mem_append.1 (hrows ▸ ha) with ha | ha
  · exact ha
  · rw [List.mem_singleton.1 ha] at hcreator
    obtain ⟨i, hi, hauthority, -⟩ := hcreator
    obtain ⟨b, hb, hid⟩ := (hl.credit i hi).1
    have hthere := Table.has_iff.2 ⟨b, hb, hid.trans hauthority⟩
    rw [hnew] at hthere
    contradiction

/-- A credit may ask for something new of the authority that it is given to. -/
theorem Complete.putInvolvement {i : Involvement} (h : s.Complete)
    (hput : s.putInvolvement i = .ok t) : s.AsksOnly t [i.authority] := by
  rcases putInvolvement_eq_ok hput with rfl | ⟨-, -, credits, hrows, rfl⟩
  · exact h.asksOnly_self
  · refine h.asksOnly rfl rfl fun a ha hid m hm _ hcreator => ⟨ha, hm, ?_⟩
    obtain ⟨j, hj, hauthority, hwork⟩ := hcreator
    rcases List.mem_append.1 (hrows ▸ hj) with hj | hj
    · exact ⟨j, hj, hauthority, hwork⟩
    · rw [List.mem_singleton.1 hj] at hauthority
      exact absurd (List.mem_singleton.2 hauthority.symm) hid

/-- Without a credit nothing more is asked. -/
theorem Complete.removeInvolvement {id m : Id} {role : Role} {removed : Bool} (h : s.Complete)
    (hremove : s.removeInvolvement id m role = (removed, t)) : s.AsksOnly t ids := by
  unfold Store.removeInvolvement at hremove
  split at hremove
  · cases hremove
    refine h.asksOnly rfl rfl fun a ha _ m hm _ hcreator => ⟨ha, hm, ?_⟩
    obtain ⟨i, hi, hcredit⟩ := hcreator
    exact ⟨i, (List.mem_filter.1 hi).1, hcredit⟩
  · cases hremove
    exact h.asksOnly_self

theorem mem_credited {id m : Id} : id ∈ s.credited m ↔
    ∃ i ∈ s.involvements.rows, i.manifestation = m ∧ i.authority = id := by
  simp only [credited, mem_distinct, List.mem_map, List.mem_filter, beq_iff_eq, and_assoc]

theorem nodup_credited (s : Store) (m : Id) : (s.credited m).Nodup :=
  (List.mergeSort_perm _ _).nodup_iff.2 (nodup_eraseDups _)

/-- A work that is published may be asked for by all who have a credit on it, in whatever role. -/
theorem Complete.updateManifestation {w : Manifestation} (h : s.Complete)
    (hupdate : s.updateManifestation now w = .ok t) : s.AsksOnly t (t.credited w.id) := by
  obtain rfl := updateManifestation_eq_ok hupdate
  refine h.asksOnly rfl rfl fun a ha hid m hm _ hcreator => ⟨ha, ?_, hcreator⟩
  obtain ⟨old, hold, rfl⟩ := List.mem_map.1 hm
  by_cases hchanged : Keyed.key old = w.id
  · -- the authority has a credit on the changed work, so it is among those that are listed
    obtain ⟨i, hi, hauthority, hwork, -⟩ := hcreator
    rw [if_pos hchanged] at hwork
    exact absurd (mem_credited.2 ⟨i, hi, hwork.trans hchanged, hauthority⟩) hid
  · rw [if_neg hchanged]
    exact hold

end Store

/-! ### Requests for works, authorities and credits -/

/-- The requests that make works and authorities, give and take credits, and change works. -/
def Request.catalogues : Request → Bool
  | createManifestation _ | updateManifestation _ | createAuthority _ => true
  | addInvolvement .. | removeInvolvement .. => true
  | _ => false

namespace Session

open Store

variable {n m : Session} {as : List Id} {r : Request} {now : Time}

/-- The authorities whose credits were announced to have changed. -/
def creditsAnnounced (n : Session) : List Id := n.announced.reverse.filterMap Event.involvement?

/-- Nothing stops the upkeep, which runs, and no authority was announced twice. -/
structure Announcing [Arithmetic] (n : Session) : Prop where
  ready : n.Ready
  runs : n.upkeepRuns = true
  once : n.creditsAnnounced.Nodup

/-- What a session announced that had announced nothing before. -/
theorem creditsAnnounced_announceAll (h : n.announced = []) (es : List Event) :
    (n.announceAll es).creditsAnnounced = es.filterMap Event.involvement? := by
  rw [creditsAnnounced, announceAll_announced, h, List.append_nil, List.reverse_reverse]

/-- An edit that gives no ids to slots and collections leaves the ids that serve. -/
theorem Ready.edit [Arithmetic] {α : Type} {ids : α → ℕ} {f : Store → Except Fault (α × Store)}
    {x : α}
    (h : n.Ready) (op : Operation) (hgiven : op.given = ∅)
    (hop : op.run n.store = (f n.store).map Prod.snd) (hedit : n.edit ids f = .ok (x, m))
    (hslots : m.store.slots = n.store.slots)
    (hcollections : m.store.collections = n.store.collections) : m.Ready := by
  obtain ⟨-, t, ht, rfl⟩ := edit_eq_ok.1 hedit
  have hrun : op.run n.store = .ok t := by
    rw [hop, ht]
    rfl
  refine ⟨h.reached.step op (fun id hid => ?_) hrun, ?_, h.opened, h.unlocked, h.going⟩
  · rw [hgiven] at hid
    exact False.elim hid
  · show t.FreshIds (n.ids.take (ids x)).id
    rw [IdSupply.id_take]
    refine h.fresh.following _ (fun c hc => .inl ?_) (fun y hy => .inl ?_)
    · rwa [hasCollection, show t.collections = n.store.collections from hcollections] at hc
    · rwa [show t.slots = n.store.slots from hslots] at hy

/-! ### What is announced -/

theorem Announcing.of_silent [Arithmetic] (h : n.Ready) (hruns : n.upkeepRuns = true)
    (hnone : n.announced = []) : n.Announcing :=
  ⟨h, hruns, by rw [creditsAnnounced, hnone]; exact List.nodup_nil⟩

/-- A step that makes neither slots nor collections and announces each authority once. -/
theorem Announcing.of_edit [Arithmetic] {α : Type} {ids : α → ℕ}
    {f : Store → Except Fault (α × Store)} {x : α} {k : Session} {es : List Event} (h : n.Ready)
    (hruns : n.upkeepRuns = true) (hnone : n.announced = []) (op : Operation)
    (hgiven : op.given = ∅)
    (hop : op.run n.store = (f n.store).map Prod.snd) (hedit : n.edit ids f = .ok (x, k))
    (hasks : n.store.AsksOnly k.store as) (honce : (es.filterMap Event.involvement?).Nodup) :
    (k.announceAll es).Announcing := by
  have hready : k.Ready := h.edit op hgiven hop hedit hasks.slots hasks.collections
  have hcore : (k.announceAll es).core = k.core := k.core_announceAll es
  have hruns' : k.upkeepRuns = true := by
    obtain ⟨-, t, -, rfl⟩ := edit_eq_ok.1 hedit
    exact hruns
  refine ⟨hready.of_core hcore.symm, (runs_of_core hcore).trans hruns', ?_⟩
  rwa [creditsAnnounced_announceAll ((edit_announced hedit).trans hnone)]

theorem filterMap_creditEvent (ids : List Id) :
    (ids.map creditEvent).filterMap Event.involvement? = ids := by
  rw [List.filterMap_map]
  exact List.filterMap_some

/-- What a request leaves for the upkeep: it announced each authority once, and works lack only with
those that it announced, unless a read behind its step failed. -/
structure Leaves [Arithmetic] (n : Session) (now : Time) (r : Request) (m : Session) : Prop where
  announcing : m.Announcing
  completeBut : n.Served now r → m.store.CompleteBut m.creditsAnnounced

theorem Leaves.of_complete [Arithmetic] (h : m.Announcing) (hcomplete : m.store.Complete) :
    Leaves n now r m :=
  ⟨h, fun _ a ha _ => hcomplete a ha⟩

/-- A step that asks something new only of those that are announced then. -/
theorem Leaves.of_edit [Arithmetic] {α : Type} {ids : α → ℕ}
    {f : Store → Except Fault (α × Store)} {x : α} {k : Session} {es : List Event} (h : n.Ready)
    (hruns : n.upkeepRuns = true) (hnone : n.announced = []) (op : Operation)
    (hgiven : op.given = ∅)
    (hop : op.run n.store = (f n.store).map Prod.snd) (hedit : n.edit ids f = .ok (x, k))
    (hasks : n.store.AsksOnly k.store (es.filterMap Event.involvement?))
    (honce : (es.filterMap Event.involvement?).Nodup) : Leaves n now r (k.announceAll es) := by
  refine ⟨.of_edit h hruns hnone op hgiven hop hedit hasks honce, fun _ => ?_⟩
  rw [announceAll_store, creditsAnnounced_announceAll ((edit_announced hedit).trans hnone)]
  exact hasks.complete

/-- A step that asks nothing new of anybody. -/
theorem Leaves.of_quiet_edit [Arithmetic] {α : Type} {ids : α → ℕ}
    {f : Store → Except Fault (α × Store)} {x : α} (h : n.Ready) (hruns : n.upkeepRuns = true)
    (hnone : n.announced = []) (op : Operation) (hgiven : op.given = ∅)
    (hop : op.run n.store = (f n.store).map Prod.snd) (hedit : n.edit ids f = .ok (x, m))
    (hasks : n.store.AsksOnly m.store []) : Leaves n now r m := by
  have hleaves : Leaves n now r (m.announceAll []) :=
    .of_edit h hruns hnone op hgiven hop hedit hasks List.nodup_nil
  exact hleaves

theorem Leaves.updateManifestation [Arithmetic] {d : ManifestationDraft}
    {reply : Except Fault Reply}
    (h : n.Ready) (hruns : n.upkeepRuns = true) (hnone : n.announced = [])
    (hcomplete : n.store.Complete) (hanswer : n.updateManifestation d = (reply, m)) :
    Leaves n n.now (.updateManifestation d) m := by
  unfold Session.updateManifestation at hanswer
  split at hanswer
  · cases hanswer
    exact .of_complete (.of_silent h hruns hnone) hcomplete
  · rename_i id k hwrite
    obtain ⟨rfl, hedit⟩ := writeManifestation_eq_ok hwrite
    have hasks := hcomplete.updateManifestation (edit_run_unit hedit)
    rw [writeManifestation_readBehind _ hwrite] at hanswer
    cases hout : n.outages n.now with
    | some cause =>
        -- the work was written, and nobody is announced
        simp only [hout] at hanswer
        cases hanswer
        have hannouncing : (m.announceAll []).Announcing :=
          .of_edit h hruns hnone (.updateManifestation n.now _) rfl (eq_map_snd _) hedit hasks
            List.nodup_nil
        exact ⟨hannouncing, fun hserved => absurd (hserved d rfl) (by simp [hout])⟩
    | none =>
        simp only [hout] at hanswer
        cases hanswer
        refine .of_edit h hruns hnone (.updateManifestation n.now _) rfl (eq_map_snd _) hedit ?_ ?_
        · rwa [filterMap_creditEvent]
        · rw [filterMap_creditEvent]
          exact nodup_credited _ _

/-- **A request announces whatever it leaves incomplete**, where the read behind its step is
served. -/
theorem Ready.leaves [Arithmetic] {reply : Except Fault Reply} (h : n.Ready)
    (hruns : n.upkeepRuns = true) (hnone : n.announced = []) (hcomplete : n.store.Complete)
    (hr : r.catalogues = true) (hanswer : n.answer r = (reply, m)) : Leaves n n.now r m := by
  -- a refusal leaves everything, and an edit is looked at by itself
  have hsettle : ∀ x : Except Fault (Reply × Session), n.settle x = (reply, m) →
      (∀ reply m, x = .ok (reply, m) → Leaves n n.now r m) → Leaves n n.now r m := by
    intro x hx hok
    cases x with
    | error fault =>
        cases hx
        exact .of_complete (.of_silent h hruns hnone) hcomplete
    | ok p =>
        cases hx
        exact hok p.1 p.2 rfl
  cases r
  case createManifestation d =>
      refine hsettle _ hanswer fun reply m hm => ?_
      simp only [createManifestation, bind_eq_ok, Prod.exists, pure_eq_ok, Prod.mk.injEq] at hm
      obtain ⟨_, -, _, k, hedit, -, rfl⟩ := hm
      exact .of_quiet_edit h hruns hnone (.createManifestation _) rfl (eq_map_snd _) hedit
        (hcomplete.putManifestation h.lawful (edit_run_unit hedit))
  case updateManifestation d => exact .updateManifestation h hruns hnone hcomplete hanswer
  case createAuthority d =>
      refine hsettle _ hanswer fun reply m hm => ?_
      simp only [createAuthority, bind_eq_ok, Prod.exists, pure_eq_ok, Prod.mk.injEq] at hm
      obtain ⟨_, -, _, k, hedit, -, rfl⟩ := hm
      exact .of_quiet_edit h hruns hnone (.createAuthority _) rfl (eq_map_snd _) hedit
        (hcomplete.putAuthority h.lawful (edit_run_unit hedit))
  case addInvolvement a w role =>
      refine hsettle _ hanswer fun reply m hm => ?_
      simp only [addInvolvement, bind_eq_ok, Prod.exists, pure_eq_ok, Prod.mk.injEq] at hm
      obtain ⟨_, k, hedit, -, rfl⟩ := hm
      exact .of_edit h hruns hnone (.addInvolvement _) rfl (eq_map_snd _) hedit
        (hcomplete.putInvolvement (edit_run_unit hedit)) (List.nodup_singleton a)
  case removeInvolvement a w role =>
      refine hsettle _ hanswer fun reply m hm => ?_
      simp only [removeInvolvement, bind_eq_ok, Prod.exists, pure_eq_ok, Prod.mk.injEq] at hm
      obtain ⟨removed, k, hedit, -, rfl⟩ := hm
      refine .of_edit h hruns hnone (.removeInvolvement a w role) rfl rfl hedit ?_ ?_
      · exact hcomplete.removeInvolvement (Except.ok.inj (edit_run hedit))
      · cases removed
        · exact List.nodup_nil
        · exact List.nodup_singleton a
  all_goals cases hr

/-! ### What the upkeep completes -/

/-- A refresh completes the collection of the authority. -/
theorem RefreshedTo.completeFor [Arithmetic] {a : Authority} {o : RefreshOutcome}
    (hto : RefreshedTo n a o m) {b : Authority} (hb : b ∈ m.store.authorities.rows)
    (hid : b.id = a.id) : m.store.CompleteFor b := by
  cases hto.row.symm.trans (authority?_eq_some.2 ⟨hb, hid⟩)
  exact hto.filled.completeFor

/-- Behind a refresh the upkeep gets to the others as it would have before. -/
theorem RefreshedTo.getsTo_iff [Arithmetic] {a : Authority} {o : RefreshOutcome}
    (hto : RefreshedTo n a o m) (ha : a.id ∉ as) {id : Id} :
    m.store.GetsTo as id ↔ n.store.GetsTo as id := by
  have hne : ∀ {b}, b ∈ as → b ≠ a.id := fun hb hsame => ha (hsame ▸ hb)
  constructor
  · rintro ⟨hrefreshes, before, after, rfl, hsound⟩
    rw [(hto.fate_eq (hne (List.mem_append_right _ List.mem_cons_self))).1] at hrefreshes
    exact ⟨hrefreshes, before, after, rfl, fun b hb =>
      (hto.fate_eq (hne (List.mem_append_left _ hb))).2.symm.trans (hsound b hb)⟩
  · rintro ⟨hrefreshes, before, after, rfl, hsound⟩
    rw [← (hto.fate_eq (hne (List.mem_append_right _ List.mem_cons_self))).1] at hrefreshes
    exact ⟨hrefreshes, before, after, rfl, fun b hb =>
      (hto.fate_eq (hne (List.mem_append_left _ hb))).2.trans (hsound b hb)⟩

/-- Behind a refresh of the authority `a` nothing lacks with those of the others with whom nothing
lacked before. -/
theorem RefreshedTo.settled_iff [Arithmetic] {a : Authority} {o : RefreshOutcome}
    (hto : RefreshedTo n a o m) (hid : a.id ∉ as)
    (hrefreshes : n.store.refreshes a.id = true) :
    (∀ b ∈ m.store.authorities.rows, m.store.CompleteFor b ∨ m.store.GetsTo as b.id) ↔
      ∀ b ∈ n.store.authorities.rows, n.store.CompleteFor b ∨ n.store.GetsTo (a.id :: as) b.id := by
  constructor
  · intro h b hb
    by_cases hsame : b.id = a.id
    · exact .inr (getsTo_cons.2 (.inl ⟨hsame ▸ hrefreshes, hsame⟩))
    · have hview := hto.sameView b hb hsame
      refine (h b hview.row).imp (hview.completeFor_iff hb).1 fun hgets => ?_
      exact getsTo_cons.2 (.inr ⟨breaksOff_of_refreshes hrefreshes, (hto.getsTo_iff hid).1 hgets⟩)
  · intro h b hb
    by_cases hsame : b.id = a.id
    · exact .inl (hto.completeFor hb hsame)
    · have hold : b ∈ n.store.authorities.rows := (hto.others b hsame).1 hb
      refine (h b hold).imp ((hto.sameView b hold hsame).completeFor_iff hold).2 fun hgets => ?_
      rcases getsTo_cons.1 hgets with ⟨-, hfirst⟩ | ⟨-, hgets⟩
      · exact absurd hfirst hsame
      · exact (hto.getsTo_iff hid).2 hgets

/-- **The upkeep completes what it gets to**, one authority after the other, and nothing else.  It
runs on if no refresh breaks off. -/
theorem Ready.respond [Arithmetic] (h : n.Ready) (hrunning : n.halted = false)
    (hnodup : as.Nodup) : (n.respond as).Ready ∧
    ((n.respond as).halted = false ↔ ∀ id ∈ as, n.store.breaksOff id = false) ∧
    ((n.respond as).store.Complete ↔
      ∀ a ∈ n.store.authorities.rows, n.store.CompleteFor a ∨ n.store.GetsTo as a.id) := by
  induction as generalizing n with
  | nil =>
      refine ⟨h, iff_of_true hrunning nofun, forall₂_congr fun a _ => ?_⟩
      rw [or_iff_left not_getsTo_nil]
      rfl
  | cons id as ih =>
      obtain ⟨hid, hothers⟩ := List.nodup_cons.1 hnodup
      have hretried := h.attended id
      have hhalted := n.attend_halted id
      rw [respond_cons hrunning]
      generalize n.attend id = k at *
      generalize (n.carryOut (n.settings.maintainer.retry id)).1 = answer at *
      cases hretried with
      | @refreshed a o _ hrow hroom hto =>
          obtain ⟨-, rfl⟩ := authority?_eq_some.1 hrow
          have hrefreshes : n.store.refreshes a.id = true := by simp [refreshes, hrow, hroom]
          obtain ⟨hready, hgoes, hcomplete⟩ := ih hto.ready hhalted hothers
          refine ⟨hready, hgoes.trans ?_, hcomplete.trans (hto.settled_iff hid hrefreshes)⟩
          rw [List.forall_mem_cons, and_iff_right (breaksOff_of_refreshes hrefreshes)]
          exact forall₂_congr fun b hb => by rw [(hto.fate_eq fun hne => hid (hne ▸ hb)).2]
      | givenUp hrefused hsound hready hkept =>
          obtain ⟨hready, hgoes, hcomplete⟩ := ih hready hhalted hothers
          rw [hkept] at hgoes hcomplete
          refine ⟨hready, hgoes.trans ?_, hcomplete.trans ?_⟩
          · rw [List.forall_mem_cons, and_iff_right hsound]
          · refine forall₂_congr fun b _ => or_congr_right ?_
            rw [getsTo_cons, and_iff_right hsound, or_iff_right]
            rintro ⟨hrefreshes, hsame⟩
            rw [hsame, hrefused] at hrefreshes
            contradiction
      | brokenOff hbreaks hready hkept =>
          rw [respond_halted hhalted, hhalted, hkept]
          refine ⟨hready, iff_of_false (by decide) fun hsound => ?_, ?_⟩
          · rw [hsound id List.mem_cons_self] at hbreaks
            contradiction
          · refine forall₂_congr fun b _ => (or_iff_left fun hgets => ?_).symm
            rcases getsTo_cons.1 hgets with ⟨hrefreshes, hsame⟩ | ⟨hsound, -⟩
            · rw [← hsame, breaksOff_of_refreshes hrefreshes] at hbreaks
              contradiction
            · rw [hsound] at hbreaks
              contradiction

theorem respond_started [Arithmetic] (n : Session) (as : List Id) :
    (n.respond as).started = n.started ∧ (n.respond as).cancelled = n.cancelled := by
  induction as generalizing n with
  | nil => exact ⟨rfl, rfl⟩
  | cons id as ih =>
      cases h : n.halted with
      | true =>
          rw [respond_halted h]
          exact ⟨rfl, rfl⟩
      | false =>
          rw [respond_cons h]
          exact ⟨(ih _).1.trans (n.attend_started id).1, (ih _).2.trans (n.attend_started id).2⟩

/-- Where the upkeep runs, it follows a request, and runs on if no refresh breaks off. -/
theorem Announcing.followed [Arithmetic] (h : m.Announcing) : m.followed.Ready ∧
    (m.followed.upkeepRuns = true ↔ ∀ id ∈ m.creditsAnnounced, m.store.breaksOff id = false) ∧
    (m.followed.store.Complete ↔ ∀ a ∈ m.store.authorities.rows,
      m.store.CompleteFor a ∨ m.store.GetsTo m.creditsAnnounced a.id) := by
  have hruns := h.runs
  rw [upkeepRuns, Bool.and_eq_true, Bool.and_eq_true, Bool.not_eq_true', Bool.not_eq_true'] at hruns
  obtain ⟨⟨hstarted, hgoing⟩, hrunning⟩ := hruns
  obtain ⟨hready, hhalted, hcomplete⟩ := h.ready.respond hrunning h.once
  obtain ⟨hstarted', hgoing'⟩ := m.respond_started m.creditsAnnounced
  rw [Session.followed, if_pos h.runs]
  refine ⟨hready, Iff.trans ?_ hhalted, hcomplete⟩
  show (m.respond m.creditsAnnounced).upkeepRuns = true ↔ _
  rw [upkeepRuns, hstarted', hgoing', hstarted, hgoing]
  simp

/-! ### Requests one after the other -/

/-- The upkeep can answer what the request announces: the read behind its step is served, no refresh
breaks off, and there are numbers for each authority that is there. -/
def Answerable [Arithmetic] (n : Session) (now : Time) (r : Request) : Prop :=
  n.Served now r ∧
    ∀ id ∈ ((n.atTime now).answer r).2.creditsAnnounced,
      ((n.atTime now).answer r).2.store.knows id = true →
        ((n.atTime now).answer r).2.store.refreshes id = true

/-- The session after requests at the given times, each followed by the upkeep. -/
def stepEach [Arithmetic] (n : Session) (calls : List (Time × Request)) : Session :=
  calls.foldl (fun n call => (n.step call.1 call.2).2) n

/-- The upkeep can answer what each of the requests announces, in the session that it comes to. -/
def AnswerableEach [Arithmetic] (n : Session) : List (Time × Request) → Prop
  | [] => True
  | call :: calls => n.Answerable call.1 call.2 ∧ (n.step call.1 call.2).2.AnswerableEach calls

/-- **What a request and the upkeep behind it leave**, exactly. -/
theorem Ready.step [Arithmetic] {reply : Except Fault Reply} (h : n.Ready)
    (hruns : n.upkeepRuns = true) (hcomplete : n.store.Complete) (hr : r.catalogues = true)
    (hanswer : (n.atTime now).answer r = (reply, m)) : (n.step now r).2.Ready ∧
    ((n.step now r).2.upkeepRuns = true ↔
      ∀ id ∈ m.creditsAnnounced, m.store.breaksOff id = false) ∧
    ((n.step now r).2.store.Complete ↔ ∀ a ∈ m.store.authorities.rows,
      m.store.CompleteFor a ∨ m.store.GetsTo m.creditsAnnounced a.id) := by
  have hready : (n.atTime now).Ready := ⟨h.reached, h.fresh, h.opened, h.unlocked, h.going⟩
  rw [step_eq hanswer]
  exact (hready.leaves hruns rfl hcomplete hr hanswer).announcing.followed

/-- **A request keeps a complete store complete** where the upkeep can answer what it announces. -/
theorem Ready.step_complete [Arithmetic] (h : n.Ready) (hruns : n.upkeepRuns = true)
    (hcomplete : n.store.Complete) (hr : r.catalogues = true) (hcall : n.Answerable now r) :
    (n.step now r).2.Ready ∧ (n.step now r).2.upkeepRuns = true ∧
      (n.step now r).2.store.Complete := by
  have hready : (n.atTime now).Ready := ⟨h.reached, h.fresh, h.opened, h.unlocked, h.going⟩
  obtain ⟨hserved, hrefreshes⟩ := hcall
  rcases hanswer : (n.atTime now).answer r with ⟨reply, m⟩
  rw [hanswer] at hrefreshes
  obtain ⟨hafter, hgoes, hsettles⟩ := h.step hruns hcomplete hr hanswer
  have hleaves := hready.leaves hruns rfl hcomplete hr hanswer
  have hsound : ∀ id ∈ m.creditsAnnounced, m.store.breaksOff id = false := by
    intro id hid
    cases hknown : m.store.knows id with
    | true => exact breaksOff_of_refreshes (hrefreshes id hid hknown)
    | false => exact breaksOff_of_unknown hknown
  refine ⟨hafter, hgoes.2 hsound, hsettles.2 fun a ha => ?_⟩
  by_cases hid : a.id ∈ m.creditsAnnounced
  · refine .inr ((getsTo_iff hsound).2 ⟨hid, hrefreshes a.id hid ?_⟩)
    rw [knows, authority?_eq_some.2 ⟨ha, rfl⟩]
    rfl
  · exact .inl (hleaves.completeBut hserved a ha hid)

/-- **Complete stores stay complete** under all runs of requests for works, authorities and credits
where the upkeep runs in the background, nothing stops it, and it can answer what is announced.
Whether it can or not, a request leaves a complete store complete exactly if the upkeep gets to each
authority with whom something lacks by then, and has numbers for it.  After a request the upkeep
answers each change of credits on the bus by one refresh, in order, until a refresh breaks off; its
own announcements come to the same bus and bring no more refreshes, and it comes to rest behind
them. -/
theorem Ready.stays_complete [Arithmetic] {n : Session} (h : n.Ready) (hruns : n.upkeepRuns = true)
    (hcomplete : n.store.Complete) (calls : List (Time × Request))
    (hcalls : ∀ call ∈ calls, call.2.catalogues = true) :
    (n.AnswerableEach calls →
      (n.stepEach calls).store.Complete ∧ (n.stepEach calls).upkeepRuns = true) ∧
    (∀ (m : Session) now r reply, r.catalogues = true → (n.atTime now).answer r = (reply, m) →
      ((n.step now r).2.store.Complete ↔ ∀ a ∈ m.store.authorities.rows,
        m.store.CompleteFor a ∨ m.store.GetsTo m.creditsAnnounced a.id)) ∧
    ∀ (k m : Session) now r reply, (k.atTime now).answer r = (reply, m) → m.upkeepRuns = true →
      ∀ kept older turns, m.announced.length ≤ kept → m.announced.length < turns →
        ∃ s', listen kept older turns m ⟨older.length, some isCredit⟩ =
            (m.attended m.creditsAnnounced, (k.step now r).2, s') ∧
          m.attended m.creditsAnnounced <+: m.creditsAnnounced ∧
          ((k.step now r).2.halted = false →
            m.attended m.creditsAnnounced = m.creditsAnnounced ∧
              s' = ⟨((k.step now r).2.announced ++ older).length, some isCredit⟩) := by
  refine ⟨fun hanswerable => ?_, fun m now r reply hr hanswer => ?_, ?_⟩
  · induction calls generalizing n with
    | nil => exact ⟨hcomplete, hruns⟩
    | cons call calls ih =>
        obtain ⟨hfirst, hrest⟩ := hanswerable
        obtain ⟨hready, hruns, hcomplete⟩ :=
          h.step_complete hruns hcomplete (hcalls call List.mem_cons_self) hfirst
        exact ih hready hruns hcomplete (fun c hc => hcalls c (List.mem_cons_of_mem call hc)) hrest
  · exact (h.step hruns hcomplete hr hanswer).2.2
  · intro k m now r reply hanswer hruns kept older turns hkept hturns
    have hfollowed : (k.step now r).2 = m.respond m.creditsAnnounced := by
      rw [step_eq hanswer, Session.followed, if_pos hruns]
      rfl
    have hunread : (m.bus kept older).unread older.length = m.announced.reverse := by
      rw [Bus.unread, bus, List.reverse_append, List.drop_left' older.length_reverse]
    rw [upkeepRuns, Bool.and_eq_true, Bool.and_eq_true, Bool.not_eq_true',
      Bool.not_eq_true'] at hruns
    obtain ⟨⟨-, hgoing⟩, hrunning⟩ := hruns
    rw [hfollowed]
    have hcredits : ((m.bus kept older).unread older.length).filterMap Event.involvement? =
        m.creditsAnnounced := by
      rw [hunread]
      rfl
    have hroom : ((m.bus kept older).unread older.length).length ≤ kept := by
      rwa [hunread, List.length_reverse]
    have hposition : older.length ≤ (m.announced ++ older).length := by
      rw [List.length_append]
      exact Nat.le_add_left _ _
    have hfew : m.creditsAnnounced.length < turns := by
      have hfewer := List.length_filterMap_le Event.involvement? m.announced.reverse
      rw [List.length_reverse] at hfewer
      exact hfewer.trans_lt hturns
    obtain ⟨s', hlisten, hend⟩ :=
      listen_eq hgoing hrunning (s := ⟨older.length, some isCredit⟩) rfl hcredits hroom hposition
        hfew
    exact ⟨s', hlisten, m.attended_prefix _, fun hrests => ⟨attended_eq hrests, hend hrests⟩⟩

/-- A work that is not published yet, by an author who edited it too, for examples. -/
def drafted : List (Time × Request) := [
  (1, .createManifestation ⟨some "work", "Work", Manifestation.unpublished, none, none⟩),
  (2, .createAuthority ⟨some "author", "Author", none, 0, none, none⟩),
  (3, .addInvolvement "author" "work" .author),
  (4, .addInvolvement "author" "work" .editor)]

/-- The work is published, for examples. -/
def publication : Request :=
  .updateManifestation ⟨some "work", "Work", Manifestation.published, none, none⟩

/-- The session when the work was published, before the upkeep follows, for examples. -/
def published : Session := (((trial.stepEach drafted).atTime 5).answer publication).2

theorem stays_complete_publication :
    (trial.stepEach (drafted ++ [(5, publication)])).store.Complete ∧
    (trial.stepEach (drafted ++ [(5, publication)])).store.bucketItems "author" =
      [.manifestation "work"] ∧
    listen 128 [] 2 published ⟨0, some isCredit⟩ =
      (["author"], ((trial.stepEach drafted).step 5 publication).2, ⟨2, some isCredit⟩) := by
  have hready : trial.Ready := .of_bare .empty rfl rfl rfl rfl rfl rfl
  have hcomplete : trial.store.Complete := fun a ha => absurd ha List.not_mem_nil
  have hcalls : ∀ call ∈ drafted ++ [(5, publication)], call.2.catalogues = true := by decide
  obtain ⟨hstays, -, hlistens⟩ := Ready.stays_complete hready rfl hcomplete _ hcalls
  have hanswerable : trial.AnswerableEach (drafted ++ [(5, publication)]) :=
    ⟨⟨nofun, by decide +kernel⟩, ⟨nofun, by decide +kernel⟩, ⟨nofun, by decide +kernel⟩,
      ⟨nofun, by decide +kernel⟩, ⟨fun _ _ => by decide +kernel, by decide +kernel⟩, trivial⟩
  have hruns : published.upkeepRuns = true := by decide +kernel
  have hone : published.announced.length = 1 := by decide +kernel
  have hcredits : published.creditsAnnounced = ["author"] := by decide +kernel
  have hend : (((trial.stepEach drafted).step 5 publication).2.announced ++ []).length = 2 := by
    decide +kernel
  obtain ⟨s', hlisten, -, hrests⟩ := hlistens (trial.stepEach drafted) published 5 publication _ rfl
    hruns 128 [] 2 (by rw [hone]; decide) (by rw [hone]; decide)
  obtain ⟨hall, rfl⟩ := hrests (by decide +kernel)
  rw [hall, hcredits, hend] at hlisten
  exact ⟨(hstays hanswerable).1, by decide +kernel, hlisten⟩

/-- A second work and the credit of the author on it, for examples. -/
def sequel : List (Time × Request) := [
  (8, .createManifestation ⟨some "sequel", "Sequel", Manifestation.published, none, none⟩),
  (9, .addInvolvement "author" "sequel" .author)]

/-- Where the one work of an author has the last number, the upkeep breaks off when there is a
second one, and where that number is no word it gives up.  Where the credits on a work that was
published cannot be read, nobody is announced.  Each time a complete store does not stay
complete. -/
theorem incomplete_behind_last : ∃ s t,
    Operation.runAll .empty crowded = .ok s ∧ Operation.runAll .empty overtaken = .ok t ∧
    (∀ call ∈ sequel ++ drafted ++ [(5, publication)], call.2.catalogues = true) ∧
    (∃ n : Session, n = { trial with store := s } ∧ n.Ready ∧ n.upkeepRuns = true ∧
      n.store.Complete ∧ ¬ (n.stepEach sequel).store.Complete ∧
        (n.stepEach sequel).upkeepRuns = false) ∧
    (∃ n : Session, n = { trial with store := t } ∧ n.Ready ∧ n.upkeepRuns = true ∧
      n.store.Complete ∧ ¬ (n.stepEach sequel).store.Complete ∧
        (n.stepEach sequel).upkeepRuns = true) ∧
    ∃ n : Session, n = { trial with outages := fun _ => some .poolTimedOut } ∧ n.Ready ∧
      n.upkeepRuns = true ∧ n.store.Complete ∧
        ¬ (n.stepEach (drafted ++ [(5, publication)])).store.Complete := by
  obtain ⟨s, hs, hcollections, hslots, hcomplete, hincomplete, hhalts⟩ : ∃ s,
      Operation.runAll .empty crowded = .ok s ∧
      (∀ row ∈ s.collections.rows, row.id ∈ (List.range 2).map (lettered 'x')) ∧
      (∀ z ∈ s.slots.rows, z.id ∈ (List.range 3).map (lettered 'x')) ∧ s.Complete ∧
      ¬ (({ trial with store := s } : Session).stepEach sequel).store.Complete ∧
      (({ trial with store := s } : Session).stepEach sequel).upkeepRuns = false :=
    exists_eq_ok_of_any (by decide +kernel)
  obtain ⟨t, ht, hcollections', hslots', hcomplete', hincomplete', hruns⟩ : ∃ t,
      Operation.runAll .empty overtaken = .ok t ∧
      (∀ row ∈ t.collections.rows, row.id ∈ (List.range 2).map (lettered 'x')) ∧
      (∀ z ∈ t.slots.rows, z.id ∈ (List.range 3).map (lettered 'x')) ∧ t.Complete ∧
      ¬ (({ trial with store := t } : Session).stepEach sequel).store.Complete ∧
      (({ trial with store := t } : Session).stepEach sequel).upkeepRuns = true :=
    exists_eq_ok_of_any (by decide +kernel)
  have hgiving := reachedGiving_lettered (x := 'x') (by decide)
    (by simp [crowded, Operation.authored, Operation.given]) hs
  have hgiving' := reachedGiving_lettered (x := 'x') (by decide)
    (by simpa [overtaken, crowded, Operation.authored, Operation.given] using ⟨2, rfl⟩) ht
  exact ⟨s, t, hs, ht, by decide,
    ⟨_, rfl, .of_lettered hgiving hcollections hslots rfl rfl rfl rfl, rfl, hcomplete, hincomplete,
      hhalts⟩,
    ⟨_, rfl, .of_lettered hgiving' hcollections' hslots' rfl rfl rfl rfl, rfl, hcomplete',
      hincomplete', hruns⟩,
    _, rfl, .of_bare .empty rfl rfl rfl rfl rfl rfl, rfl,
    fun a ha => absurd ha List.not_mem_nil, by decide +kernel⟩

end Session

end Anthology
