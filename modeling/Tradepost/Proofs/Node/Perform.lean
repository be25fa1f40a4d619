import Tradepost.Proofs.Node.Lookup

/-!
# What a call comes to

`change?` tells what a call makes of the contents of a registry, or that it
fails, without any record number. A call that is run from its start to its end
does just that; a call that fails leaves the contents as they were.
-/

namespace Tradepost

open Registry

def Offer.edited (p : Payload) : Offer := { payload := p, state := .available, feed := .node }

namespace Registry

/-- The edited offer of a request; numbers of records play no part in it. -/
def Entry.plan (e : Entry) (r : EditRequest) : Outcome (Payload × Int × OpenState) :=
  Node.planEdit
    { number := 0, terms := { offer := 0, triggerPrice := e.triggerPrice, state := e.state }, offer := e.offer } r

theorem plan_entry (own : Own) (r : EditRequest) : own.entry.plan r = Node.planEdit own r := rfl

theorem plan_id {e : Entry} {r : EditRequest} {edited : Payload} {trigger : Int} {state : OpenState}
    (h : e.plan r = .ok (edited, trigger, state)) : edited.id = e.offer.id := by
  unfold Entry.plan Node.planEdit at h
  obtain ⟨v, _, h⟩ := bind_eq_ok.mp h
  obtain ⟨p, hp, h⟩ := bind_eq_ok.mp h
  unfold EditRequest.merge at hp
  cases hq : r.pricing e.offer.payload v.editType with
  | error x =>
    rw [hq] at hp
    cases hp
  | ok q =>
    rw [hq] at hp
    cases hp
    cases h
    rfl

end Registry

namespace Node

def change? (n : Node) (c : Contents) : Call → Option Contents
  | .create p =>
    match (n.draftOffer p).2 with
    | .error _ => none
    | .ok o =>
      if amountsValid o.payload = true ∧ c.table.get? o.id = none then
        some (c.place o.id
          { offer := { o with state := .available }, triggerPrice := p.triggerPrice, state := .available })
      else none
  | .edit id r =>
    match c.own? n.fingerprint id with
    | none => none
    | some e =>
      match e.plan r with
      | .error _ => none
      | .ok (edited, trigger, state) =>
        if id ∈ c.editing then none
        else some ((c.withdraw id).publish id { offer := .edited edited, triggerPrice := trigger, state })
  | .cancel id => (c.own? n.fingerprint id).map fun _ => c.clear id

def aim (n : Node) : Call → String
  | .create _ => n.ids.next.2
  | .edit id _ | .cancel id => id

/-- A call that went as told, or a failed one that was told to fail and left the registry as it was.
-/
def Kept (n : Node) (c : Call) (m : Node) (outcome : Outcome Receipt) : Prop :=
  (∃ x s, outcome = .ok x ∧ n.change? n.registry.contents c = some s ∧ m.registry.contents = s ∧
      Spares n.registry m.registry (n.aim c)) ∨
    (∃ e, outcome = .error e ∧ n.change? n.registry.contents c = none ∧ Untouched n.registry m.registry)

variable {n : Node}

/-! ## How calls end -/

def holding (n : Node) (r : Registry) : Node := { n with registry := r }

theorem settle_finished (n : Node) (x : Outcome Receipt) : n.settle (.finished x) = (n, x) := by rw [settle]

theorem settle_waiting (n : Node) (c : Command) (s : Session) :
    n.settle (.waiting c s) =
      (n.holding (n.registry.run c).1).settle ((n.holding (n.registry.run c).1).resume s (n.registry.run c).2) := by
  rw [settle]
  rfl

theorem settle_refused {n : Node} {c : Command} {s : Session} {r : Registry} {m : String}
    (h : n.registry.run c = (r, .refused m)) :
    n.settle (.waiting c s) = (n.holding r, .error (.service (.registry s.phase m))) := by
  rw [settle_waiting, h, resume, failed, settle_finished]

theorem settle_placed {n : Node} {k : Nat} {t : Int} {r : Registry} {x : Option String} {o : Offer}
    (h : n.registry.run (.place k t) = (r, .accepted x)) (ho : r.offer? k = some o) (he : o.error? = none) :
    n.settle (.waiting (.place k t) (.placing k)) = (n.holding r, .ok (.placed k)) := by
  have ho' : (n.holding r).registry.offer? k = some o := ho
  rw [settle_waiting, h, resume]
  simp only [ho', Option.bind_some, he]
  rw [settle_finished]

theorem settle_published {n : Node} {k : Nat} {t : Int} {s : OpenState} {r : Registry} {x : Option String}
    (h : n.registry.run (.editPublish k t s) = (r, .accepted x)) :
    n.settle (.waiting (.editPublish k t s) (.publishing k)) = (n.holding r, .ok (.edited k)) := by
  rw [settle_waiting, h, resume, settle_finished]

theorem settle_started {n : Node} {k m : Nat} {t : Int} {s : OpenState} {r : Registry} {x : Option String}
    (h : n.registry.run (.editStart k) = (r, .accepted x)) :
    n.settle (.waiting (.editStart k) (.starting m t s)) =
      (n.holding r).settle (.waiting (.editPublish m t s) (.publishing m)) := by
  rw [settle_waiting, h, resume]

/-! ## Calls run from start to end -/

def withPlaced (n : Node) (p : CreateParams) (o : Offer) : Node :=
  (n.draftOffer p).1.holding ((n.registry.fileOffer o).1.placed n.registry.offers.nextNumber o.id p.triggerPrice)

inductive Creation (n : Node) (p : CreateParams) : Node × Outcome Receipt → Prop where
  | undrafted {e : Failure} : (n.draftOffer p).2 = .error e → Creation n p ((n.draftOffer p).1, .error e)
  | invalid {o : Offer} {m : String} : (n.draftOffer p).2 = .ok o → amountsValid o.payload = false →
      Creation n p
        ((n.draftOffer p).1.holding ((n.registry.fileOffer o).1.amendOffer n.registry.offers.nextNumber
            fun o => { o with error? := some (amountsText o.payload) }),
          .error (.service (.registry "place offer" m)))
  | taken {o : Offer} {k : Nat} {m : String} : (n.draftOffer p).2 = .ok o → n.registry.table.get? o.id = some k →
      Creation n p
        ((n.draftOffer p).1.holding (n.registry.fileOffer o).1, .error (.service (.registry "place offer" m)))
  | placed {o : Offer} : (n.draftOffer p).2 = .ok o → amountsValid o.payload = true →
      n.registry.table.get? o.id = none →
      Creation n p (n.withPlaced p o, .ok (.placed n.registry.offers.nextNumber))

theorem offer?_placed_filed (r : Registry) (o : Offer) (t : Int) :
    ((r.fileOffer o).1.placed r.offers.nextNumber o.id t).offer? r.offers.nextNumber =
      some { o with state := .available } := by
  refine (offer?_amendOffer _ _ _ _).trans ?_
  rw [if_pos rfl, offer?_filed]
  rfl

theorem perform_creation (n : Node) (p : CreateParams) : Creation n p (n.perform (.create p)) := by
  unfold Node.perform
  cases hd : (n.draftOffer p).2 with
  | error e =>
    rw [begin_create_error hd]
    dsimp only
    rw [settle_finished]
    exact .undrafted hd
  | ok o =>
    rw [begin_create hd]
    dsimp only
    have ho : (n.registry.fileOffer o).1.offer? n.registry.offers.nextNumber = some o := offer?_filed o
    obtain ⟨r, x, hrun⟩ : ∃ r x,
      (n.registry.fileOffer o).1.run (.place n.registry.offers.nextNumber p.triggerPrice) =
      (r, x) := ⟨_, _, rfl⟩
    have e := run_effect (n.registry.fileOffer o).1 (.place n.registry.offers.nextNumber p.triggerPrice)
    rw [hrun] at e
    cases e with
    | dangling ha =>
      have : (n.registry.fileOffer o).1.idOf? n.registry.offers.nextNumber = none := ha
      rw [idOf?_of_offer? ho] at this
      cases this
    | invalid hn hv =>
      obtain rfl := Option.some.inj (hn.symm.trans ho)
      rw [settle_refused hrun]
      exact .invalid hd hv
    | taken hn hv hk =>
      obtain rfl := Option.some.inj (hn.symm.trans ho)
      rw [settle_refused hrun]
      exact .taken hd hk
    | placed hn hv hk =>
      obtain rfl := Option.some.inj (hn.symm.trans ho)
      rw [settle_placed hrun (offer?_placed_filed ..) (draftOffer_ok hd).2]
      exact .placed hd hv hk

theorem getMyOpenOffer_withPlaced {p : CreateParams} {o : Offer} (hd : (n.draftOffer p).2 = .ok o) :
    (n.withPlaced p o).getMyOpenOffer o.id = .ok {
      number := n.registry.openOffers.nextNumber
      terms := { offer := n.registry.offers.nextNumber, triggerPrice := p.triggerPrice }
      offer := { o with state := .available } } := by
  obtain ⟨t, f, hdrafted⟩ := draftOffer_drafted hd
  obtain ⟨w, ids, hn, _⟩ := n.draftOffer_node p
  have hown :
    ((n.registry.fileOffer o).1.placed n.registry.offers.nextNumber o.id p.triggerPrice).lookup?
        o.id = some {
      number := n.registry.openOffers.nextNumber
      terms := { offer := n.registry.offers.nextNumber, triggerPrice := p.triggerPrice }
      offer := { o with state := .available } } := by
    refine Option.bind_eq_some_iff.mpr ⟨n.registry.openOffers.nextNumber, ?_, own?_eq_some.mpr ⟨rfl, ?_, ?_⟩⟩
    · exact (table_placed ..).trans (if_pos rfl)
    · exact (openOffer?_placed ..).trans (if_pos rfl)
    · exact offer?_placed_filed ..
  have howner : o.payload.owner = n.fingerprint := by
    rw [hdrafted.offer]
    rfl
  unfold getMyOpenOffer withPlaced
  rw [hn]
  simp [holding, hown, Offer.isOwnedBy, howner]

theorem create_error_status {p : CreateParams} {e : ServiceError}
    (h : (n.perform (.create p)).2 = .error (.service e)) :
    e.httpStatus ≠ 201 := by
  have hcreation := n.perform_creation p
  generalize n.perform (.create p) = m at h hcreation
  cases hcreation with
  | undrafted hd =>
    cases h
    cases e with
    | general c message status => exact absurd hd (specific_draftOffer n p c message status)
    | _ => simp [ServiceError.httpStatus, ServiceError.family?]
  | invalid _ _ =>
    cases h
    simp [ServiceError.httpStatus]
  | taken _ _ =>
    cases h
    simp [ServiceError.httpStatus]
  | placed _ _ _ => cases h

theorem Sound.create (h : n.Sound) (p : CreateParams) :
    Kept n (.create p) (n.perform (.create p)).1 (n.perform (.create p)).2 := by
  unfold Kept Node.change?
  dsimp only
  have hcreation := n.perform_creation p
  generalize n.perform (.create p) = m at hcreation ⊢
  cases hcreation with
  | undrafted hd =>
    obtain ⟨w, ids, hn, _⟩ := n.draftOffer_node p
    rw [hd, hn]
    exact .inr ⟨_, rfl, rfl, .refl _⟩
  | invalid hd hv =>
    rw [hd]
    exact .inr ⟨_, rfl, by simp [hv], h.keyed.untouched_amend_filed _ _⟩
  | taken hd hk =>
    rw [hd]
    refine .inr ⟨_, rfl, if_neg fun x => ?_, h.keyed.untouched_fileOffer _⟩
    cases ((get?_contents_table _ _).mp x.2).symm.trans hk
  | @placed o hd hv hk =>
    rw [hd]
    have ho : (n.registry.fileOffer o).1.offer? n.registry.offers.nextNumber = some o := offer?_filed o
    refine .inl ⟨_, _, rfl, if_pos ⟨hv, (get?_contents_table _ _).mpr hk⟩, ?_, ?_⟩
    · rw [← (h.keyed.untouched_fileOffer o).contents]
      exact (h.keyed.fileOffer o).contents_placed ho _
    · rw [aim, ← (draftOffer_ok hd).1]
      exact ((h.keyed.untouched_fileOffer o).spares _).trans (spares_placed (idOf?_of_offer? ho) _)

theorem Sound.edit (h : n.Sound) (id : String) (r : EditRequest) :
    Kept n (.edit id r) (n.perform (.edit id r)).1 (n.perform (.edit id r)).2 := by
  unfold Kept Node.change? Node.perform
  dsimp only
  cases ho : n.getMyOpenOffer id with
  | error e =>
    rw [own?_of_unknown ho, begin_edit_unknown ho, failed, settle_finished]
    exact .inr ⟨_, rfl, rfl, .refl _⟩
  | ok own =>
    rw [own?_of_getMyOpenOffer ho]
    dsimp only
    rw [plan_entry]
    cases hp : planEdit own r with
    | error e =>
      rw [begin_edit_error ho hp, settle_finished]
      exact .inr ⟨_, rfl, rfl, .refl _⟩
    | ok plan =>
      obtain ⟨edited, trigger, state⟩ := plan
      obtain ⟨hk, hown, hid⟩ := h.owned ho
      obtain rfl : edited.id = id := (plan_id (e := own.entry) hp).trans hid
      rw [begin_edit ho hp]
      dsimp only
      have hf := h.keyed.fileOffer (.edited edited)
      have hc := (h.keyed.untouched_fileOffer (.edited edited)).contents
      rcases run_start (hf.table hk) hk with ⟨he, m, hrun⟩ | ⟨he, hrun⟩
      · have he' : edited.id ∈ n.registry.contents.editing := he
        rw [settle_refused hrun, if_pos he']
        exact .inr ⟨_, rfl, rfl, h.keyed.untouched_fileOffer _⟩
      · have hw := hf.withdrawn hk
        have hn :
            ((n.registry.fileOffer (.edited edited)).1.withdrawn edited.id).offer?
              n.registry.offers.nextNumber =
          some (.edited edited) := offer?_filed _
        have hrun' := run_publish hn (List.mem_cons_self ..) hk trigger state
        have he' : edited.id ∉ n.registry.contents.editing := he
        rw [settle_started hrun, settle_published hrun', if_neg he']
        refine .inl ⟨_, _, rfl, rfl, ?_, ?_⟩
        · rw [← hc, ← contents_withdrawn]
          exact hw.contents_published hn hk trigger state
        · have hs := (h.keyed.untouched_fileOffer (.edited edited)).spares edited.id
          exact ⟨hs.ids, hs.offers⟩

theorem Sound.cancel (h : n.Sound) (id : String) :
    Kept n (.cancel id) (n.perform (.cancel id)).1 (n.perform (.cancel id)).2 := by
  unfold Kept Node.change? Node.perform
  dsimp only
  cases ho : n.getMyOpenOffer id with
  | error e =>
    rw [own?_of_unknown ho, begin_cancel_unknown ((h.getMyOffer_eq id).trans ho), failed, settle_finished]
    exact .inr ⟨_, rfl, rfl, .refl _⟩
  | ok own =>
    rw [own?_of_getMyOpenOffer ho, begin_cancel ((h.getMyOffer_eq id).trans ho)]
    obtain ⟨hk, hown, hid⟩ := h.owned ho
    have hn : n.registry.idOf? own.terms.offer = some id := hid ▸ idOf?_of_offer? (own?_eq_some.mp hown).2.2
    rw [settle_waiting, run_remove hn hk, resume, settle_finished]
    exact .inl ⟨_, _, rfl, rfl, h.keyed.contents_retired hn hk, spares_retired hn _⟩

/-- **A call does what its contents tell, or nothing.** -/
theorem Sound.perform_kept (h : n.Sound) (c : Call) : Kept n c (n.perform c).1 (n.perform c).2 := by
  cases c with
  | create p => exact h.create p
  | edit id r => exact h.edit id r
  | cancel id => exact h.cancel id

/-- **A failed call leaves the registry as it was.** In any state of the node, and wherever the call
fails. -/
theorem failed_call_untouched (h : n.Reachable) {c : Call} {e : Failure} (hf : (n.perform c).2 = .error e) :
    Untouched n.registry (n.perform c).1.registry := by
  rcases h.sound.perform_kept c with ⟨x, _, hx, _⟩ | ⟨_, _, _, hu⟩
  · cases hf.symm.trans hx
  · exact hu

def halfEdited : Node :=
  { registry := after {} [.makeOffer (Offer.small "me" "own-1"), .command (.place 0 0), .command (.editStart 0)] }

def switchOff : EditRequest := { editType := .text "ACTIVATION_STATE_ONLY", activation := .integer 0 }

theorem halfEdited_reachable : halfEdited.Reachable := Reachable.after (.fresh rfl rfl rfl : Reachable {}) _

theorem failed_call_untouched_halfEdited :
    ∃ e, (halfEdited.perform (.edit "own-1" switchOff)).2 = .error e ∧
      Untouched halfEdited.registry (halfEdited.perform (.edit "own-1" switchOff)).1.registry := by
  have hc : halfEdited.change? halfEdited.registry.contents (.edit "own-1" switchOff) = none := by decide
  rcases halfEdited_reachable.sound.perform_kept (.edit "own-1" switchOff) with ⟨_, c, _, hx, _⟩ | ⟨e, he, _⟩
  · cases hc.symm.trans hx
  · exact ⟨e, he, failed_call_untouched halfEdited_reachable he⟩

end Node

end Tradepost
