import Tradepost.Proofs.Node.Pending

/-!
# Interleaved tasks are serializable

However the parts of tasks are interleaved, the registry ends up with what the
tasks that succeeded make of it one at a time, in the order of their last parts.
-/

namespace Tradepost

open Registry

/-! ## Both ways of running tasks -/

namespace Node

variable {n m : Node} {c c' s : Contents}

theorem behind_own (hb : c.Behind s) (owner id : String) : s.own? owner id = c.own? owner id :=
  Contents.own?_congr (by rw [hb.table]) owner

theorem behind_create (hb : c.Behind s) (ha : n.Alike m) (hclock : n.clock = m.clock)
    (hid : n.ids.next.2 = m.ids.next.2) {p : CreateParams} (h : n.change? c (.create p) = some c')
    (hno : n.ids.next.2 ∉ c.editing) :
    ∃ e s', c' = c.place n.ids.next.2 e ∧ m.change? s (.create p) = some s' ∧ c'.Behind s' := by
  have hd := ha.draftOffer hclock hid p
  unfold change? at h ⊢
  dsimp only at h ⊢
  rw [← hd]
  cases hx : (n.draftOffer p).2 with
  | error e =>
    rw [hx] at h
    cases h
  | ok o =>
    rw [hx] at h
    dsimp only at h ⊢
    rw [← (draftOffer_ok hx).1] at hno ⊢
    split at h
    · rename_i hv
      cases h
      rw [← hb.table, if_pos hv]
      exact ⟨_, _, rfl, rfl, hb.place hno _⟩
    · cases h

theorem behind_cancel (hb : c.Behind s) (ha : n.Alike m) {id : String} (h : n.change? c (.cancel id) = some c') :
    c' = c.clear id ∧ ∃ s', m.change? s (.cancel id) = some s' ∧ c'.Behind s' := by
  obtain ⟨e, he, rfl⟩ := Option.map_eq_some_iff.mp h
  refine ⟨rfl, s.clear id, ?_, hb.clear id⟩
  have ho : s.own? m.fingerprint id = some e := by
    rw [behind_own hb, ← ha.fingerprint, he]
  exact Option.map_eq_some_iff.mpr ⟨e, ho, rfl⟩

theorem behind_edit (hb : c.Behind s) {id : String} {r : EditRequest} {e : Entry}
    {payload : Payload} {trigger : Int}
    {state : OpenState} (ho : c.own? m.fingerprint id = some e) (hp : e.plan r = .ok (payload, trigger, state)) :
    m.change? s (.edit id r) =
      some ((s.withdraw id).publish id { offer := .edited payload, triggerPrice := trigger, state }) := by
  unfold change?
  dsimp only
  rw [behind_own hb, ho]
  dsimp only
  rw [hp]
  exact if_neg (by rw [hb.settled]; exact List.not_mem_nil)

theorem supplied_alike (n : Node) (t : Task) : (n.supplied t).Alike n := ⟨rfl, rfl, rfl, rfl⟩

theorem Sound.supplied (h : n.Sound) (t : Task) : (n.supplied t).Sound := ⟨h.keyed, h.book, h.table⟩

theorem Sound.serve (h : n.Sound) (t : Task) : (n.serve t).1.Sound := (h.supplied t).perform t.call

theorem serve_alike (n : Node) (t : Task) : (n.serve t).1.Alike n :=
  (perform_alike _ _).trans (n.supplied_alike t)

theorem serially_snoc {ts : List Task} (h : n.serially ts = .ok m) (hm : m.Sound) {t : Task}
    (ht : (m.supplied t).change? m.registry.contents t.call = some s) :
    ∃ m', n.serially (ts ++ [t]) = .ok m' ∧ m'.Sound ∧ m'.Alike m ∧ m'.registry.contents = s := by
  refine ⟨(m.serve t).1, ?_, hm.serve t, m.serve_alike t, ?_⟩
  all_goals rcases (hm.supplied t).perform_kept t.call with ⟨x, s', hx, htold, hs, _⟩ | ⟨e, _, htold, _⟩
  · rw [serially_append h, serially]
    have hserve : m.serve t = ((m.serve t).1, .ok x) := Prod.ext rfl hx
    rw [hserve]
    rfl
  · cases htold.symm.trans ht
  · obtain rfl : s' = s := Option.some.inj (htold.symm.trans ht)
    exact hs
  · cases htold.symm.trans ht

end Node

structure Sim (n : Node) (l : Loop) (m : Node) (ps : List Pending) (future : List String) : Prop where
  serial : n.serially l.succeeded = .ok m
  queued : Queued l ps
  sound : l.desk.node.Sound
  sound' : m.Sound
  alike : l.desk.node.Alike n
  alike' : m.Alike n
  behind : l.desk.node.registry.contents.Behind m.registry.contents
  pacts : Pacts l.desk.node.registry n.fingerprint ps
  free : ∀ id ∈ future, l.desk.node.registry.contents.table.get? id = none ∧ ∀ p ∈ ps, p.Started → p.id ≠ id
  drawn : future.Nodup

namespace Sim

variable {n m : Node} {l l' : Loop} {ps ps' : List Pending} {future : List String} {t : Task}

theorem failed (h : Sim n l m ps future) (hend : l'.succeeded = l.succeeded) (hq : Queued l' ps')
    (hs : l'.desk.node.Sound) (ha : l'.desk.node.Alike l.desk.node)
    (hu : Untouched l.desk.node.registry l'.desk.node.registry)
    (hp : Pacts l'.desk.node.registry n.fingerprint ps') (hsub : ∀ p ∈ ps', p.Started → p ∈ ps) :
    Sim n l' m ps' future where
  serial := hend ▸ h.serial
  queued := hq
  sound := hs
  sound' := h.sound'
  alike := ha.trans h.alike
  alike' := h.alike'
  behind := hu.contents ▸ h.behind
  pacts := hp
  free id hid := by
    rw [hu.contents]
    exact ⟨(h.free id hid).1, fun p hp hst => (h.free id hid).2 p (hsub p hp hst) hst⟩
  drawn := h.drawn

theorem supplied (h : Sim n l m ps future) (t : Task) : (l.desk.node.supplied t).Alike (m.supplied t) :=
  ((Node.supplied_alike _ t).trans (h.alike.trans h.alike'.symm)).trans (Node.supplied_alike m t).symm

/-- The last part of a task that succeeds is matched by the whole task. -/
theorem succeeded (h : Sim n l m ps future) (hend : l'.succeeded = l.succeeded ++ [t]) (hq : Queued l' ps')
    (hs : l'.desk.node.Sound) (ha : l'.desk.node.Alike l.desk.node)
    (hp : Pacts l'.desk.node.registry n.fingerprint ps')
    {s : Contents} (ht : (m.supplied t).change? m.registry.contents t.call = some s)
    (hb : l'.desk.node.registry.contents.Behind s)
    (hf : ∀ id ∈ future, l'.desk.node.registry.contents.table.get? id = none ∧ ∀ p ∈ ps', p.Started → p.id ≠ id) :
    ∃ m', Sim n l' m' ps' future := by
  obtain ⟨m', hserial, hsound, halike, hm'⟩ := Node.serially_snoc h.serial h.sound' ht
  exact ⟨m', hend ▸ hserial, hq, hs, hsound, ha.trans h.alike, halike.trans h.alike', hm'.symm ▸ hb, hp,
    hf, h.drawn⟩

theorem at_once (h : Sim n l m ps future) (t : Task) (hc : ∀ id r, t.call ≠ .edit id r) :
    Sim n (l.move (.take t)) m ps future ∨
      ((l.move (.take t)).succeeded = l.succeeded ++ [t] ∧ Queued (l.move (.take t)) ps ∧
        (l.move (.take t)).desk.node.Sound ∧ (l.move (.take t)).desk.node.Alike l.desk.node ∧
        Spares l.desk.node.registry (l.move (.take t)).desk.node.registry ((l.desk.node.supplied t).aim t.call) ∧
        (l.desk.node.supplied t).change? l.desk.node.registry.contents t.call =
          some (l.move (.take t)).desk.node.registry.contents) := by
  obtain ⟨issued, hi, hmove⟩ := Loop.take_at_once l h.queued.relay t hc
  rw [hmove]
  have hq := h.queued.take t { l.desk with node := (l.desk.node.serve t).1, issued } rfl rfl rfl hi
    (l.desk.node.serve t).2
  have hs := h.sound.serve t
  have ha := l.desk.node.serve_alike t
  rcases (h.sound.supplied t).perform_kept t.call with ⟨x, c', hx, htold, rfl, hsp⟩ | ⟨e, hx, _, hu⟩
  · have hx : (l.desk.node.serve t).2 = .ok x := hx
    rw [hx] at hq ⊢
    exact .inr ⟨Loop.succeeded_ok .., hq, hs, ha, hsp, htold⟩
  · have hx : (l.desk.node.serve t).2 = .error e := hx
    rw [hx] at hq ⊢
    exact .inl (h.failed (Loop.succeeded_error ..) hq hs ha hu (h.pacts.untouched hu) fun _ hp _ => hp)

theorem create (t : Task) (h : Sim n l m ps (t.id :: future)) {p : CreateParams} (hc : t.call = .create p) :
    ∃ m', Sim n (l.move (.take t)) m' ps future := by
  obtain ⟨hfree, hnp⟩ := h.free t.id (List.mem_cons_self ..)
  obtain ⟨hnew, hdrawn⟩ := List.nodup_cons.mp h.drawn
  have h' : Sim n l m ps future :=
    { h with free := fun id hid => h.free id (List.mem_cons_of_mem _ hid), drawn := hdrawn }
  rcases h'.at_once t (by rw [hc]; exact fun _ _ => nofun) with hf | ⟨hend, hq, hs, ha, hsp, htold⟩
  · exact ⟨m, hf⟩
  · rw [hc] at hsp htold
    -- the id is new, so that nothing is being edited under it
    have hno : t.id ∉ l.desk.node.registry.contents.editing :=
      h.sound.keyed.not_marked ((get?_contents_table _ _).mp hfree)
    obtain ⟨e, s', hcon, hs', hb⟩ := Node.behind_create h.behind (h.supplied t) rfl rfl htold hno
    refine h'.succeeded hend hq hs ha (h.pacts.placed hsp hcon hnp) (hc ▸ hs') hb fun id hid => ?_
    have hne : id ≠ t.id := fun x => hnew (x ▸ hid)
    obtain ⟨hn, hother⟩ := h'.free id hid
    rw [hcon]
    exact ⟨(Contents.agree_place hne e).table.trans hn, hother⟩

theorem cancel (t : Task) (h : Sim n l m ps future) {id : String} (hc : t.call = .cancel id) :
    ∃ m', Sim n (l.move (.take t)) m' ps future := by
  rcases h.at_once t (by rw [hc]; exact fun _ _ => nofun) with hf | ⟨hend, hq, hs, ha, hsp, htold⟩
  · exact ⟨m, hf⟩
  · rw [hc] at hsp htold
    obtain ⟨hcon, s', hs', hb⟩ := Node.behind_cancel h.behind (h.supplied t) htold
    refine h.succeeded hend hq hs ha (h.pacts.cleared hsp hcon) (hc ▸ hs') hb fun id' hid => ?_
    obtain ⟨hn, hother⟩ := h.free id' hid
    refine ⟨?_, hother⟩
    rw [hcon, Contents.clear, OrderedMap.get?_erase]
    split
    · rfl
    · exact hn

theorem started (h : Sim n l m ps future) {p : Pending} (hend : l'.succeeded = l.succeeded)
    (hq : Queued l' (ps ++ [p])) (hs : l'.desk.node.Sound) (ha : l'.desk.node.Alike l.desk.node)
    (hc : l'.desk.node.registry.contents = l.desk.node.registry.contents.withdraw p.id)
    (hsp : Spares l.desk.node.registry l'.desk.node.registry p.id) (hp : p.Started) {e : Entry} {payload : Payload}
    (hown : l.desk.node.registry.contents.own? l.desk.node.fingerprint p.id = some e)
    (hplan : e.plan p.request = .ok (payload, p.trigger, p.state))
    (ho : l'.desk.node.registry.offer? p.edited = some (.edited payload))
    (hno : p.id ∉ l.desk.node.registry.contents.editing) (hid : payload.id = p.id) :
    Sim n l' m (ps ++ [p]) future where
  serial := hend ▸ h.serial
  queued := hq
  sound := hs
  sound' := h.sound'
  alike := ha.trans h.alike
  alike' := h.alike'
  behind := hc ▸ h.behind.withdraw p.id
  pacts := by
    refine h.pacts.started hsp hc hp ⟨?_, fun _ => ?_, fun hno => ?_⟩ hno (Contents.own?_table hown)
    · exact hid ▸ idOf?_of_offer? ho
    · refine ⟨e, payload, ?_, hplan, ho⟩
      rw [hc, ← h.alike.fingerprint]
      exact hown
    · rw [hc] at hno
      exact absurd (List.mem_cons_self ..) hno
  free id' hid' := by
    obtain ⟨hn, hother⟩ := h.free id' hid'
    refine ⟨by rw [hc]; exact hn, fun q hq hst => ?_⟩
    rcases List.mem_append.mp hq with hq | hq
    · exact hother q hq hst
    · rw [List.mem_singleton.mp hq]
      rintro rfl
      exact Contents.own?_table hown hn
  drawn := h.drawn

theorem unstarted (h : Sim n l m ps future) {e : Failure}
    (hb : (l.desk.node.supplied t).begin t.call = (l.desk.node.supplied t, .finished (.error e))) :
    Sim n (l.move (.take t)) m ps future := by
  rw [Loop.take_ended (Desk.start_finished { l.desk with node := l.desk.node.supplied t } hb l.taken.length)]
  exact h.failed (Loop.succeeded_error ..)
    (h.queued.take t { l.desk with node := l.desk.node.supplied t } rfl rfl rfl (Nat.le_refl _) _)
    (h.sound.supplied t) (l.desk.node.supplied_alike t) (.refl _) h.pacts fun _ hp _ => hp

theorem edit (t : Task) (h : Sim n l m ps future) {id : String} {r : EditRequest} (hc : t.call = .edit id r) :
    ∃ ps', Sim n (l.move (.take t)) m ps' future := by
  cases ho : (l.desk.node.supplied t).getMyOpenOffer id with
  | error e => exact ⟨ps, h.unstarted (hc ▸ Node.begin_edit_unknown ho)⟩
  | ok own =>
    cases hp : Node.planEdit own r with
    | error e => exact ⟨ps, h.unstarted (hc ▸ Node.begin_edit_error ho hp)⟩
    | ok plan =>
      obtain ⟨payload, trigger, state⟩ := plan
      obtain ⟨hk, hown, hid⟩ := (h.sound.supplied t).owned ho
      obtain rfl : payload.id = id := (plan_id (e := own.entry) hp).trans hid
      have hf := h.sound.keyed.fileOffer (.edited payload)
      have hu := h.sound.keyed.untouched_fileOffer (.edited payload)
      rcases run_start (hf.table hk) hk with ⟨he, msg, hrun⟩ | ⟨he, hrun⟩
      · obtain ⟨d, hmove, hnode, hq⟩ := h.queued.start hc ho hp hrun
        have hr : d.node.registry = (l.desk.node.registry.fileOffer (.edited payload)).1 := by rw [hnode]; rfl
        rw [hmove]
        refine ⟨_, h.failed rfl hq ?_ ?_ (hr ▸ hu) ?_ ?_⟩
        · exact hnode ▸ ⟨hf, h.sound.book, h.sound.table⟩
        · exact hnode ▸ ⟨rfl, rfl, rfl, rfl⟩
        · exact (h.pacts.untouched (hr ▸ hu)).refused nofun
        · intro p hp hst
          rcases List.mem_append.mp hp with hp | hp
          · exact hp
          · obtain ⟨x, hx⟩ := List.mem_singleton.mp hp ▸ hst
            cases hx
      · obtain ⟨d, hmove, hnode, hq⟩ := h.queued.start hc ho hp hrun
        have hr : d.node.registry = (l.desk.node.registry.fileOffer (.edited payload)).1.withdrawn payload.id := by
          rw [hnode]
          rfl
        have hcon : d.node.registry.contents = l.desk.node.registry.contents.withdraw payload.id := by
          rw [hr, contents_withdrawn, hu.contents]
        have hs := hu.spares payload.id
        have ho' : l.desk.node.getMyOpenOffer payload.id = .ok own := ho
        rw [hmove]
        refine ⟨_, h.started rfl hq ?_ ?_ hcon (hr ▸ ⟨hs.ids, hs.offers⟩) ⟨none, rfl⟩
          (Node.own?_of_getMyOpenOffer ho')
          hp (hr ▸ offer?_filed (r := l.desk.node.registry) _) he rfl⟩
        · exact hnode ▸ ⟨hf.withdrawn hk, h.sound.book, h.sound.table⟩
        · exact hnode ▸ ⟨rfl, rfl, rfl, rfl⟩

/-- A started edit that still finds its offer does what it would do all at once. -/
theorem publish (h : Sim n l m ps future) {i : Nat} {p : Pending} (hp : ps[i]? = some p) (hst : p.Started)
    (he : p.id ∈ l.desk.node.registry.contents.editing) :
    ∃ m', Sim n (l.move (.wake i)) m' (ps.eraseIdx i) future := by
  have hmem := List.mem_of_getElem? hp
  have hpl := h.pacts.pledged p hmem hst
  obtain ⟨e, payload, hown, hplan, ho⟩ := hpl.frozen he
  obtain ⟨k, hk⟩ := h.sound.keyed.marked he
  have hid : (Offer.edited payload).id = p.id := Option.some.inj ((idOf?_of_offer? ho).symm.trans hpl.known)
  have hrun := run_publish ho (hid ▸ he) (hid ▸ hk) p.trigger p.state
  have hcon := h.sound.keyed.contents_published ho hk p.trigger p.state
  -- the serial node finds the offer as the edit was planned for, since the mark has frozen it
  have hown' : l.desk.node.registry.contents.own? (m.supplied p.task).fingerprint p.id = some e :=
    h.alike'.fingerprint ▸ hown
  rw [hid] at hrun
  rw [h.queued.wake_started hp hst, Node.settle_published hrun]
  refine h.succeeded (Loop.succeeded_ok ..) (h.queued.drop hp (l.desk.node.holding _) (Nat.le_succ _) _)
    ⟨h.sound.keyed.published hpl.known hk p.trigger p.state, h.sound.book, h.sound.table⟩ ⟨rfl, rfl, rfl, rfl⟩
    (h.pacts.published hp hst ⟨fun x => x, fun x _ => x⟩ hcon)
    ((h.queued.tickets p hmem).2 ▸ Node.behind_edit h.behind hown' hplan) (hcon ▸ h.behind.publish he _) ?_
  intro id hid
  obtain ⟨hn, hother⟩ := h.free id hid
  have hne : id ≠ p.id := fun x => hother p hmem hst x.symm
  refine ⟨?_, fun q hq => hother q (List.mem_of_mem_eraseIdx hq)⟩
  show (l.desk.node.registry.published p.edited k p.id p.trigger p.state).contents.table.get? id = none
  rw [hcon]
  exact (Contents.agree_publish hne _).table.trans hn

theorem wake (h : Sim n l m ps future) (i : Nat) : ∃ m' ps', Sim n (l.move (.wake i)) m' ps' future := by
  cases hp : ps[i]? with
  | none =>
    rw [h.queued.wake_nobody hp]
    exact ⟨m, ps, h⟩
  | some p =>
    cases hr : p.report with
    | refused message =>
      have hno : ¬ p.Started := fun ⟨x, hx⟩ => by cases hr.symm.trans hx
      rw [h.queued.wake_refused hp hr]
      exact ⟨m, ps.eraseIdx i, h.failed (Loop.succeeded_error ..)
        (h.queued.drop hp l.desk.node (Nat.le_refl _) _) h.sound (.refl _) (.refl _)
        (h.pacts.drop hp fun hs => absurd hs hno) fun q hq _ => List.mem_of_mem_eraseIdx hq⟩
    | accepted x =>
      by_cases he : p.id ∈ l.desk.node.registry.contents.editing
      · obtain ⟨m', h'⟩ := h.publish hp ⟨x, hr⟩ he
        exact ⟨m', ps.eraseIdx i, h'⟩
      · -- the offer has been removed meanwhile, so the publication is refused
        have hpl := h.pacts.pledged p (List.mem_of_getElem? hp) ⟨x, hr⟩
        obtain ⟨message, hrun⟩ := run_publish_unstarted hpl.known he p.trigger p.state
        rw [h.queued.wake_started hp ⟨x, hr⟩, Node.settle_refused hrun]
        exact ⟨m, ps.eraseIdx i, h.failed (Loop.succeeded_error ..)
          (h.queued.drop hp (l.desk.node.holding l.desk.node.registry) (Nat.le_succ _) _) h.sound
            (.refl _) (.refl _)
          (h.pacts.drop hp fun _ => he) fun q hq _ => List.mem_of_mem_eraseIdx hq⟩

theorem idle (hn : n.Sound) (he : n.registry.editing = []) (hd : future.Nodup)
    (hf : ∀ id ∈ future, n.registry.table.get? id = none) : Sim n (.idle n) n [] future where
  serial := rfl
  queued := .idle n
  sound := hn
  sound' := hn
  alike := .refl n
  alike' := .refl n
  behind := .refl he
  pacts := {
    pledged := fun p hp => by cases hp
    once := .nil
    marked := fun id hid => by
      have hid : id ∈ n.registry.editing := hid
      rw [he] at hid
      cases hid }
  free id hid := ⟨(get?_contents_table _ _).mpr (hf id hid), fun p hp => by cases hp⟩
  drawn := hd

theorem move {v : Move} (h : Sim n l m ps (v.drawn.toList ++ future)) :
    ∃ m' ps', Sim n (l.move v) m' ps' future := by
  cases v with
  | wake i => exact h.wake i
  | take t =>
    obtain ⟨call, id, time⟩ := t
    cases call with
    | create p =>
      obtain ⟨m', h'⟩ := h.create ⟨.create p, id, time⟩ rfl
      exact ⟨m', ps, h'⟩
    | edit id' r =>
      obtain ⟨ps', h'⟩ := h.edit ⟨.edit id' r, id, time⟩ rfl
      exact ⟨m, ps', h'⟩
    | cancel id' =>
      obtain ⟨m', h'⟩ := h.cancel ⟨.cancel id', id, time⟩ rfl
      exact ⟨m', ps, h'⟩

theorem run {moves : List Move} (h : Sim n l m ps (moves.filterMap Move.drawn)) :
    ∃ m' ps', Sim n (l.run moves) m' ps' [] := by
  induction moves generalizing l m ps with
  | nil => exact ⟨m, ps, h⟩
  | cons v moves ih =>
    have h' : Sim n l m ps (v.drawn.toList ++ moves.filterMap Move.drawn) := by
      rw [List.filterMap_cons] at h
      cases hd : v.drawn with
      | none =>
        rw [hd] at h
        exact h
      | some id =>
        rw [hd] at h
        exact h
    obtain ⟨m', ps', hsim⟩ := h'.move
    exact ih hsim

end Sim

/-- **Interleaved tasks are serializable.** Once nobody waits any more, every task has ended once,
the registry holds what the tasks that succeeded make of it one at a time, in the order of their
last parts, and nothing is being edited. -/
theorem serializable {n : Node} (hn : n.Reachable) (he : n.registry.editing = []) {moves : List Move}
    (hids : (moves.filterMap Move.drawn).Nodup)
    (hnew : ∀ id ∈ moves.filterMap Move.drawn, n.registry.table.get? id = none)
    (hdone : ((Loop.idle n).run moves).desk.waiting = []) :
    (((Loop.idle n).run moves).ended.map Prod.fst).Perm (moves.filterMap Move.task?) ∧
      ∃ m, n.serially ((Loop.idle n).run moves).succeeded = .ok m ∧
        ((Loop.idle n).run moves).desk.node.registry.contents = m.registry.contents ∧
        ((Loop.idle n).run moves).desk.node.registry.editing = [] := by
  obtain ⟨m, ps, h⟩ := (Sim.idle hn.sound he hids hnew).run
  obtain rfl : ps = [] := List.map_eq_nil_iff.mp (h.queued.waiting.symm.trans hdone)
  have haccount := h.queued.account.symm
  rw [Loop.taken_run, List.map_nil, List.append_nil] at haccount
  have hedit : ((Loop.idle n).run moves).desk.node.registry.contents.editing = [] := by
    rw [List.eq_nil_iff_forall_not_mem]
    intro id hid
    obtain ⟨p, hp, _⟩ := h.pacts.marked id hid
    cases hp
  exact ⟨haccount, m, h.serial, h.behind.eq hedit, hedit⟩

def twoOwnAndAccount : Node :=
  { Node.euroTrader with registry := after {} [
      .makeOffer (Offer.small "me" "own-1"), .command (.place 0 0),
      .makeOffer (Offer.small "me" "own-2"), .command (.place 1 0)] }

theorem twoOwnAndAccount_reachable : twoOwnAndAccount.Reachable :=
  Node.Reachable.after (.fresh rfl rfl rfl : Node.euroTrader.Reachable) _

/-- Two edits of one offer, an edit that another task overtakes with a removal, and a new offer in
between. -/
def busyMoves : List Move := [
  .take { call := .edit "own-1" Node.switchOff },
  .take { call := .edit "own-2" Node.switchOff },
  .take { call := .edit "own-1" Node.switchOff },
  .take { call := .cancel "own-2" },
  .take {
    call := .create { (default : CreateParams) with
      currency := "EUR", direction := .text "BUY", price := .text "", useMarketPrice := true, amount := 1
      minAmount := 1, account := "account-1" }
    id := "own-3" },
  .wake 1, .wake 1, .wake 0]

theorem serializable_busyMoves :
    ((Loop.idle twoOwnAndAccount).run busyMoves).succeeded.length = 3 ∧
      (((Loop.idle twoOwnAndAccount).run busyMoves).ended.map Prod.fst).Perm (busyMoves.filterMap Move.task?) ∧
      ∃ m, twoOwnAndAccount.serially ((Loop.idle twoOwnAndAccount).run busyMoves).succeeded = .ok m ∧
        ((Loop.idle twoOwnAndAccount).run busyMoves).desk.node.registry.contents = m.registry.contents ∧
        ((Loop.idle twoOwnAndAccount).run busyMoves).desk.node.registry.editing = [] :=
  ⟨by decide +kernel,
    serializable twoOwnAndAccount_reachable (by decide) (by decide) (by decide +kernel) (by decide +kernel)⟩

end Tradepost
