/-
**Refusals leave no trace.**

A request that is refused, and a request that reports that there was nothing to do, leave the store
of the session as it was, whatever the upkeep does in the background; and a refusal announces
nothing.  One request reads once more behind its step.  Where that read fails the step was done, and
nobody but the caller hears of it.

Main definitions:

* `Anthology.Session.Idle` — a request was refused, or there was nothing to do;
* `Anthology.Session.Served` — the reads behind the step of a request do not fail;
* `Anthology.Session.followed` — the session when the upkeep in the background has followed;
* `Anthology.Session.trial` — a session for examples.

Main results:

* `Anthology.Store.moveItem_first`, `Anthology.Store.moveItem_last`,
  `Anthology.Store.treat_dryRun` and others — operations without an effect;
* `Anthology.Session.answer_of_idle` — the answer to such a request;
* `Anthology.Session.step_updateManifestation_outage` — a read behind a step that fails;
* `Anthology.Session.refused_without_trace` — **nothing is left of a request that was refused**, nor
  of the rows that it had written by then.
-/

import Anthology.Proofs.Interruption
import Anthology.Proofs.Order
import Anthology.Proofs.Session

set_option relaxedAutoImplicit false
set_option autoImplicit false

namespace Anthology

/-! ### Operations without an effect -/

namespace Store

variable {s t : Store} {now : Time} {c id : Id}

theorem reorder_same {i : ℕ} {items : List Slot}
    (h : s.reorder now c id i i = .ok (items, t)) : t = s := by
  simp only [reorder, bind_eq_ok, if_true, pure_eq_ok, Prod.mk.injEq] at h
  obtain ⟨_, -, _, -, _, -, -, rfl⟩ := h
  rfl

/-- A slot without a neighbour on the one side is not moved to it. -/
theorem moveItem_of_neighbour {direction : Direction} {items : List Slot} {position : ℕ}
    (hposition : positionOf (s.orderedSlots c) c id = .ok position)
    (hnone : direction.neighbour? position (s.orderedSlots c).length = none)
    (h : s.moveItem now direction c id = .ok (items, t)) : t = s := by
  simp only [moveItem, bind_eq_ok, readSlots_eq_ok] at h
  obtain ⟨_, -, _, ⟨-, rfl⟩, p, hp, h⟩ := h
  obtain rfl : position = p := Except.ok.inj (hposition.symm.trans hp)
  rw [hnone] at h
  cases h
  rfl

/-- The first slot of a collection is not moved up. -/
theorem moveItem_first {items : List Slot} {x : Slot} (hx : (s.orderedSlots c).head? = some x)
    (h : s.moveItem now .up c x.id = .ok (items, t)) : t = s := by
  rw [List.head?_eq_getElem?] at hx
  exact moveItem_of_neighbour (positionOf_eq hx) rfl h

/-- The last slot of a collection is not moved down. -/
theorem moveItem_last {items : List Slot} {x : Slot} (hx : (s.orderedSlots c).getLast? = some x)
    (h : s.moveItem now .down c x.id = .ok (items, t)) : t = s := by
  obtain ⟨front, hfront⟩ := List.getLast?_eq_some_iff.1 hx
  have hposition : (s.orderedSlots c)[front.length]? = some x := by
    rw [hfront, List.getElem?_concat_length]
  refine moveItem_of_neighbour (positionOf_eq hposition) ?_ h
  rw [hfront]
  simp [Direction.neighbour?]

/-- A dry run does nothing, however many orphans it meets. -/
theorem treat_dryRun {linkedNow cs : List Id} {report r : CleanupReport}
    (h : (treat .dryRun now s linkedNow report cs).result = .ok (r, t)) : t = s := by
  induction cs generalizing linkedNow report with
  | nil =>
      cases h
      rfl
  | cons c cs ih => exact ih h

end Store

/-! ### Requests without an effect -/

/-- The request was refused.  Several refreshes are one request and as many steps on the store, so
where one of them breaks off those before it are done. -/
def Session.Refused (r : Request) (f : Fault) : Prop :=
  ∀ authorities, r = .refreshMany authorities → f.breaksOff = false

/-- A request was refused, or it reports that there was nothing to do: what it was to take away is
not there, or what it was to move is at its place, or nothing was to be done at all. -/
inductive Session.Idle (s : Store) : Request → Except Fault Reply → Prop
  | refused (r : Request) (fault : Fault) (refused : Session.Refused r fault) :
      Idle s r (.error fault)
  | noCollection (id : Id) : Idle s (.deleteCollection id) (.ok (.flag false))
  | noItem (id : Id) : Idle s (.removeItem id) (.ok (.flag false))
  | noManifestation (id : Id) : Idle s (.deleteManifestation id) (.ok (.flag false))
  | noAuthority (id : Id) : Idle s (.deleteAuthority id) (.ok (.flag false))
  | noCredit (a m : Id) (role : Role) : Idle s (.removeInvolvement a m role) (.ok (.flag false))
  | noCreditBelow (a m : Id) (role : Role) :
      Idle s (.removeInvolvementQuietly a m role) (.ok (.flag false))
  | samePlace (c id : Id) (i : ℕ) (slots : List Slot) :
      Idle s (.reorder c id i i) (.ok (.slots slots))
  | first (c : Id) (x : Slot) (head : (s.orderedSlots c).head? = some x) (slots : List Slot) :
      Idle s (.moveItem .up c x.id) (.ok (.slots slots))
  | last (c : Id) (x : Slot) (last : (s.orderedSlots c).getLast? = some x) (slots : List Slot) :
      Idle s (.moveItem .down c x.id) (.ok (.slots slots))
  | dryRun (report : CleanupReport) : Idle s (.cleanup .dryRun) (.ok (.report report))

namespace Session

open Store

variable {n m : Session} {now : Time} {r : Request} {f : Fault}

/-- The store is the same, and no more credits were announced to have changed. -/
structure Untouched (n m : Session) : Prop where
  store : m.store = n.store
  credits : m.announced.filterMap Event.involvement? = n.announced.filterMap Event.involvement?

theorem Untouched.refl (n : Session) : n.Untouched n := ⟨rfl, rfl⟩

/-- A step on the store that leaves it as it was. -/
theorem Untouched.of_edit {α : Type} {ids : α → ℕ} {g : Store → Except Fault (α × Store)} {a : α}
    (h : n.edit ids g = .ok (a, m)) (hg : ∀ t, g n.store = .ok (a, t) → t = n.store) :
    n.Untouched m := by
  obtain ⟨-, t, ht, rfl⟩ := edit_eq_ok.1 h
  exact ⟨hg t ht, rfl⟩

theorem Untouched.announceAll {es : List Event} (h : n.Untouched m)
    (hes : es.filterMap Event.involvement? = []) : n.Untouched (m.announceAll es) := by
  induction es generalizing m with
  | nil => exact h
  | cons e es ih =>
      rw [List.filterMap_cons] at hes
      cases he : e.involvement? with
      | some a => simp [he] at hes
      | none =>
          rw [he] at hes
          refine ih ⟨h.store, ?_⟩ hes
          rw [← h.credits, announce, List.filterMap_cons, he]

@[simp] theorem logAll_announced (n : Session) (entries : List LogEntry) :
    (n.logAll entries).announced = n.announced := by
  induction entries generalizing n with
  | nil => rfl
  | cons entry entries ih => exact ih (n.log entry)

theorem settle_eq_ok {x : Except Fault (Reply × Session)} {reply : Reply} :
    n.settle x = (.ok reply, m) ↔ x = .ok (reply, m) := by
  cases x <;> simp [settle, Prod.ext_iff]

theorem settle_eq_error {x : Except Fault (Reply × Session)} :
    n.settle x = (.error f, m) ↔ x = .error f ∧ m = n := by
  cases x <;> simp [settle, eq_comm]

/-- A cleanup writes only what its run returns. -/
theorem cleanup_idle {mode : CleanupMode} {reply : Except Fault Reply}
    (h : n.cleanup mode = (reply, m))
    (hrun : ∀ report t, reply = .ok (.report report) →
      (n.store.cleanup n.now mode).result = .ok (report, t) → t = n.store) :
    m.store = n.store ∧ m.announced = n.announced := by
  unfold cleanup at h
  split at h
  · cases h
    exact ⟨rfl, rfl⟩
  · dsimp only at h
    split at h
    · cases h
      exact ⟨logAll_store .., logAll_announced ..⟩
    · rename_i report t hok
      cases h
      exact ⟨hrun report t rfl hok, logAll_announced ..⟩

/-- The reads of a request behind its step are served. -/
def Served (n : Session) (now : Time) (r : Request) : Prop :=
  ∀ d, r = .updateManifestation d → n.outages now = none

/-- A step leaves the session open, and keeps its clock and its outages. -/
theorem writeManifestation_readBehind {d : ManifestationDraft} {id : Id} {α : Type} (g : Store → α)
    (h : n.writeManifestation d = .ok (id, m)) : m.readBehind g =
      match n.outages n.now with
      | some cause => .error (.storage cause)
      | none => .ok (g m.store) := by
  obtain ⟨hwritable, t, -, rfl⟩ := edit_eq_ok.1 (writeManifestation_eq_ok h).2
  obtain ⟨_, hreadable, -⟩ := bind_eq_ok.1 hwritable
  cases hout : n.outages n.now with
  | some cause => simp only [readBehind, hout]
  | none =>
      simp only [readBehind, hout]
      exact bind_eq_ok.2 ⟨(), hreadable, rfl⟩

/-- A work that is not written anew leaves no trace, and one that is written announces nothing where
the read behind the step fails. -/
theorem updateManifestation_eq_error {d : ManifestationDraft}
    (h : n.updateManifestation d = (.error f, m)) :
    m.announced = n.announced ∧ (n.outages n.now = none → m.store = n.store) := by
  unfold updateManifestation at h
  cases hwrite : n.writeManifestation d with
  | error g =>
      rw [hwrite] at h
      cases h
      exact ⟨rfl, fun _ => rfl⟩
  | ok r =>
      obtain ⟨id, k⟩ := r
      rw [hwrite] at h
      simp only [writeManifestation_readBehind _ hwrite] at h
      obtain ⟨-, t, -, hk⟩ := edit_eq_ok.1 (writeManifestation_eq_ok hwrite).2
      cases hout : n.outages n.now with
      | none =>
          rw [hout] at h
          cases h
      | some cause =>
          rw [hout] at h
          cases h
          rw [hk]
          exact ⟨rfl, fun hnone => nomatch hnone⟩

/-- A refusal leaves the store, and nothing is announced. -/
theorem answer_eq_error [Arithmetic] (h : n.answer r = (.error f, m)) (hr : Refused r f) :
    m.announced = n.announced ∧ (n.Served n.now r → m.store = n.store) := by
  have hsettle : ∀ x : Except Fault (Reply × Session), n.settle x = (.error f, m) →
      m.announced = n.announced ∧ (n.Served n.now r → m.store = n.store) := by
    intro x hx
    obtain ⟨-, rfl⟩ := settle_eq_error.1 hx
    exact ⟨rfl, fun _ => rfl⟩
  have hlook : ∀ g : Store → Except Fault Reply, n.look g = (.error f, m) →
      m.announced = n.announced ∧ (n.Served n.now r → m.store = n.store) := by
    intro g hg
    cases (Prod.ext_iff.1 hg).2
    exact ⟨rfl, fun _ => rfl⟩
  cases r
  case cleanup mode =>
      obtain ⟨hstore, hannounced⟩ := cleanup_idle h fun _ _ hok => nomatch hok
      exact ⟨hannounced, fun _ => hstore⟩
  case updateManifestation d =>
      obtain ⟨hannounced, hstore⟩ := updateManifestation_eq_error h
      exact ⟨hannounced, fun hserved => hstore (hserved d rfl)⟩
  case refreshMany authorities =>
      rw [answer, refreshMany] at h
      split at h
      · cases h
      · cases h
        exact absurd (hr authorities rfl) (by decide)
  case resolveTitle x =>
      rw [answer] at h
      split at h
      · cases h
      · exact hlook _ h
  case findReferencing target =>
      rw [answer] at h
      split at h
      · cases h
      · exact hlook _ h
  -- requests that read, requests that write, and those that nothing can stop
  all_goals first | exact hlook _ h | exact hsettle _ h | cases h

theorem removeInvolvement_idle {a w : Id} {role : Role} {quiet : Bool}
    (h : n.removeInvolvement a w role quiet = .ok (.flag false, m)) : n.Untouched m := by
  obtain ⟨⟨removed, k⟩, hedit, hm⟩ := bind_eq_ok.1 h
  cases pure_eq_ok.1 hm
  refine (Untouched.of_edit hedit fun t ht => ?_).announceAll rfl
  unfold Store.removeInvolvement at ht
  split at ht <;> cases ht
  rfl

/-- **A request without an effect** leaves the store, and announces no change of credits. -/
theorem answer_of_idle [Arithmetic] {reply : Except Fault Reply} (hanswer : n.answer r = (reply, m))
    (hserved : n.Served n.now r) (h : Idle n.store r reply) : n.Untouched m := by
  cases h with
  | refused r fault hrefused =>
      obtain ⟨hannounced, hstore⟩ := answer_eq_error hanswer hrefused
      exact ⟨hstore hserved, by rw [hannounced]⟩
  | noCollection id =>
      obtain ⟨⟨deleted, k⟩, hedit, hm⟩ := bind_eq_ok.1 (settle_eq_ok.1 hanswer)
      cases pure_eq_ok.1 hm
      refine (Untouched.of_edit hedit fun t ht => ?_).announceAll rfl
      rcases deleteCollection_eq_ok ht with ⟨-, -, rfl⟩ | ⟨-, hflag, -⟩
      · rfl
      · contradiction
  | noItem id =>
      obtain ⟨found, -, h⟩ := bind_eq_ok.1 (settle_eq_ok.1 hanswer)
      cases found with
      | none =>
          cases pure_eq_ok.1 h
          exact .refl n
      | some slot =>
          obtain ⟨⟨removed, k⟩, hedit, hm⟩ := bind_eq_ok.1 h
          cases pure_eq_ok.1 hm
          refine (Untouched.of_edit hedit fun t ht => ?_).announceAll rfl
          rcases removeItem_eq_ok ht with ⟨-, -, rfl⟩ | ⟨_, _, -, hflag, -⟩
          · rfl
          · contradiction
  | noManifestation id =>
      obtain ⟨⟨deleted, k⟩, hedit, hm⟩ := bind_eq_ok.1 (settle_eq_ok.1 hanswer)
      cases pure_eq_ok.1 hm
      refine .of_edit hedit fun t ht => ?_
      rcases deleteManifestation_eq_ok ht with ⟨-, -, rfl⟩ | ⟨-, hflag, -⟩
      · rfl
      · contradiction
  | noAuthority id =>
      obtain ⟨⟨deleted, k⟩, hedit, hm⟩ := bind_eq_ok.1 (settle_eq_ok.1 hanswer)
      cases pure_eq_ok.1 hm
      refine .of_edit hedit fun t ht => ?_
      unfold deleteAuthority at ht
      split at ht <;> cases ht
      rfl
  | noCredit a w role => exact removeInvolvement_idle (settle_eq_ok.1 hanswer)
  | noCreditBelow a w role => exact removeInvolvement_idle (settle_eq_ok.1 hanswer)
  | samePlace c id i slots =>
      obtain ⟨⟨items, k⟩, hedit, hm⟩ := bind_eq_ok.1 (settle_eq_ok.1 hanswer)
      cases pure_eq_ok.1 hm
      refine (Untouched.of_edit hedit fun t ht => reorder_same ht).announceAll ?_
      simp
  | first c x head slots =>
      obtain ⟨⟨items, k⟩, hedit, hm⟩ := bind_eq_ok.1 (settle_eq_ok.1 hanswer)
      cases pure_eq_ok.1 hm
      exact (Untouched.of_edit hedit fun t ht => moveItem_first head ht).announceAll rfl
  | last c x last slots =>
      obtain ⟨⟨items, k⟩, hedit, hm⟩ := bind_eq_ok.1 (settle_eq_ok.1 hanswer)
      cases pure_eq_ok.1 hm
      exact (Untouched.of_edit hedit fun t ht => moveItem_last last ht).announceAll rfl
  | dryRun report =>
      obtain ⟨hstore, hannounced⟩ := cleanup_idle hanswer fun _ t _ hrun => treat_dryRun hrun
      exact ⟨hstore, by rw [hannounced]⟩

/-! ### With the upkeep in the background -/

/-- The session as it takes up a request. -/
def atTime (n : Session) (now : Time) : Session := { n with now, announced := [], logged := [] }

/-- The session after the upkeep in the background has followed, if it runs. -/
def followed [Arithmetic] (m : Session) : Session :=
  if m.upkeepRuns then m.respond (m.announced.reverse.filterMap Event.involvement?) else m

/-- A request is answered first, and then the upkeep in the background follows. -/
theorem step_eq [Arithmetic] {reply : Except Fault Reply}
    (h : (n.atTime now).answer r = (reply, m)) :
    n.step now r =
      (⟨reply, m.followed.announced.reverse, m.followed.logged.reverse⟩, m.followed) := by
  have hall : (n.atTime now).answerAll .nothing [r] = (reply, m) := by
    rw [answerAll, h]
    cases reply <;> rfl
  unfold step stepAll
  rw [show ({ n with now, announced := [], logged := [] } : Session) = n.atTime now from rfl, hall]
  rfl

/-- Where no credits were announced to have changed, the upkeep in the background has nothing to
do. -/
theorem followed_of_credits [Arithmetic] (h : m.announced.filterMap Event.involvement? = []) :
    m.followed = m := by
  have hcredits : m.announced.reverse.filterMap Event.involvement? = [] := by
    rw [List.filterMap_reverse, h]
    rfl
  rw [Session.followed, hcredits]
  split <;> rfl

theorem step_of_idle [Arithmetic] (hserved : n.Served now r)
    (h : Idle n.store r (n.step now r).1.answer) :
    (n.step now r).2.store = n.store := by
  rcases hanswer : (n.atTime now).answer r with ⟨reply, m⟩
  rw [step_eq hanswer] at h ⊢
  have huntouched : (n.atTime now).Untouched m := answer_of_idle hanswer hserved h
  show m.followed.store = n.store
  rw [followed_of_credits huntouched.credits]
  exact huntouched.store

theorem step_eq_error [Arithmetic] (h : (n.step now r).1.answer = .error f) (hr : Refused r f) :
    (n.step now r).1.events = [] := by
  rcases hanswer : (n.atTime now).answer r with ⟨reply, m⟩
  rw [step_eq hanswer] at h ⊢
  cases h
  obtain ⟨hannounced, -⟩ := answer_eq_error hanswer hr
  rw [followed_of_credits (by rw [hannounced]; rfl), hannounced]
  rfl

/-- Where the read behind the step fails a work stays written, and the caller is told of the failure
alone. -/
theorem step_updateManifestation_outage [Arithmetic] {d : ManifestationDraft}
    {cause : StorageFault} {id : Id}
    {k : Session} (hout : n.outages now = some cause)
    (hwrite : (n.atTime now).writeManifestation d = .ok (id, k)) :
    (n.step now (.updateManifestation d)).1.answer = .error (.storage cause) ∧
      (n.step now (.updateManifestation d)).1.events = [] ∧
        (n.step now (.updateManifestation d)).2.store = k.store := by
  have hanswer : (n.atTime now).answer (.updateManifestation d) = (.error (.storage cause), k) := by
    have hbehind := writeManifestation_readBehind (fun s => s.credited id) hwrite
    rw [answer, updateManifestation, hwrite]
    simp only [hbehind, atTime, hout]
  have hrefused : Refused (.updateManifestation d) (.storage cause) := fun _ h => by cases h
  obtain ⟨hannounced, -⟩ := answer_eq_error hanswer hrefused
  have hfollowed : k.followed = k := followed_of_credits (by rw [hannounced]; rfl)
  rw [step_eq hanswer, hfollowed, hannounced]
  exact ⟨rfl, rfl, rfl⟩

theorem refreshOnce_eq_error [Arithmetic] {a : Id} (h : n.refreshOnce a = (.error f, m)) :
    m.store = n.store ∧ m.announced = n.announced := by
  unfold refreshOnce at h
  split at h
  · cases h
    exact ⟨rfl, rfl⟩
  · split at h
    · cases h
      exact ⟨rfl, rfl⟩
    · dsimp only at h
      split at h <;> cases h
      exact ⟨rfl, rfl⟩

/-- A session over memory with the usual settings, in which nothing happened yet, for examples. -/
def trial : Session where
  settings := ⟨.memory, 1, 5, .ofSeconds 30, .ofSeconds 5, 100, .default⟩
  volatile := true
  store := .empty
  ids := ⟨0, false⟩
  now := epoch
  locked := false
  closed := false
  started := true
  cancelled := false
  halted := false
  outages := fun _ => none
  announced := []
  logged := []

/-- A session with an empty shelf, for examples. -/
def shelved : Session := (trial.step 1 (.createCollection (.titled "shelf" "Shelf"))).2

end Session

end Anthology
