import Tradepost.Proofs.Node.Lifetime
import Tradepost.Web.Server

/-!
# An offer as it is shown when it is created and afterwards

The answer to a creation is made from the offer, the answer to a question about
an own offer from the open offer. The trigger price is only known to the open
offer, so the first answer shows none.
-/

namespace Tradepost

open Registry

/-! ## Requests and answers -/

def WebResponse.data? (r : WebResponse) : Option Json :=
  match r.body with
  | .envelope e => some e.data
  | _ => none

def WebResponse.IsSuccess (r : WebResponse) : Prop := 200 ≤ r.status ∧ r.status < 300

theorem WebResponse.isSuccess_created {r : WebResponse} (h : r.status = 201) : r.IsSuccess := by
  simp [IsSuccess, h]

namespace WebServer

open Node

/-- A request from its arrival to its answer, with nothing in between. -/
def exchange (password : String) (configured : Bool) (n : Node) (r : WebRequest) : Node × WebResponse :=
  match handle password configured n r with
  | .answered response => (n, response)
  | .taken c =>
    let (m, outcome) := n.perform c.call
    (m, reply m r.requestId c.plan outcome)

variable {password : String} {configured : Bool} {n : Node} {r : WebRequest}

theorem sent_isSuccess {response : WebResponse} (h : (sent response).IsSuccess) :
    isSendable response.body = true ∧ sent response = response := by
  unfold sent at h ⊢
  split at h
  · rename_i hsend
    exact ⟨hsend, if_pos hsend⟩
  · exact absurd h (by simp [WebResponse.IsSuccess, brokenDown])

theorem sentTo_isSuccess {method : String} {response : WebResponse} (h : (sentTo method response).IsSuccess) :
    response.IsSuccess := by
  have hsent : (sent response).IsSuccess := by
    unfold sentTo at h
    split at h <;> exact h
  rwa [(sent_isSuccess hsent).2] at hsent

theorem sent_success (requestId : Option String) (status : Int) {data : Json} (h : data.isSendable = true) :
    sent (success requestId status data) = success requestId status data := by
  have hmessage : Text.isSendable "success" = true := by decide
  exact if_pos (Bool.and_eq_true_iff.mpr ⟨hmessage, h⟩)

/-! ### Before the node is asked -/

theorem bodyJson_refused {body : String} {response : WebResponse} (h : bodyJson body = .error response) :
    ¬ response.IsSuccess := by
  unfold bodyJson at h
  split at h
  · cases h
  · split at h <;> cases h <;> simp [WebResponse.IsSuccess, unprocessable, detail]

theorem readBody_refused {α : Type} {fields : Json → Checked α} {v : Option Json} {response : WebResponse}
    (h : readBody fields v = .error response) : ¬ response.IsSuccess := by
  unfold readBody at h
  dsimp only at h
  generalize (Checked.under _ _).outcome = x at h
  cases x with
  | error issues =>
    cases h
    simp [WebResponse.IsSuccess, unprocessable]
  | ok b => cases h

theorem checkPassword_refused {response : WebResponse} (h : checkPassword password r = .error response) :
    ¬ response.IsSuccess := by
  unfold checkPassword at h
  split at h
  · cases h
  · cases h
    simp [WebResponse.IsSuccess, failure, ServiceError.httpStatus]

theorem checkService_refused {response : WebResponse} (h : checkService configured r = .error response) :
    ¬ response.IsSuccess := by
  unfold checkService at h
  split at h
  · cases h
  · cases h
    simp [WebResponse.IsSuccess, failure, ServiceError.httpStatus]

/-- A request to create is refused before the node is asked, or becomes a call. -/
theorem attend_create (password : String) (configured : Bool) (n : Node) (r : WebRequest) :
    (∃ response, attend password configured n r .create = .error response ∧ ¬ response.IsSuccess) ∨
      (configured = true ∧ ∃ v b, bodyJson r.body = .ok v ∧
        readBody CreateBody.fields v = .ok b ∧
        attend password configured n r .create = .ok (.taken { call := .create b.params, plan := .created })) := by
  have hattend : attend password configured n r .create = (do
      let v ← bodyJson r.body
      checkPassword password r
      checkService configured r
      let b ← readBody CreateBody.fields v
      pure (.taken { call := .create b.params, plan := .created })) := rfl
  rw [hattend]
  cases hbody : bodyJson r.body with
  | error response => exact .inl ⟨response, rfl, bodyJson_refused hbody⟩
  | ok v =>
    cases hpassword : checkPassword password r with
    | error response => exact .inl ⟨response, rfl, checkPassword_refused hpassword⟩
    | ok _ =>
      cases hservice : checkService configured r with
      | error response => exact .inl ⟨response, rfl, checkService_refused hservice⟩
      | ok _ =>
        cases hread : readBody CreateBody.fields v with
        | error response =>
          refine .inl ⟨response, ?_, readBody_refused hread⟩
          change (readBody CreateBody.fields v >>= _) = _
          rw [hread]
          rfl
        | ok b =>
          refine .inr ⟨?_, v, b, rfl, hread, ?_⟩
          · unfold checkService at hservice
            split at hservice
            · assumption
            · cases hservice
          · change (readBody CreateBody.fields v >>= _) = _
            rw [hread]
            rfl

/-! ### What is shown -/

theorem sendable_trigger (v : OfferView) (t : Int) :
    (viewJson { v with triggerPrice := t }).isSendable = (viewJson v).isSendable := rfl

/-- The views of an offer and of the open offer that shows it differ in the trigger price alone. -/
theorem ofOwn_of_ofOffer {quotes : Quotes} {o : Offer} {view : OfferView}
    (h : OfferView.ofOffer quotes o true = .ok view) (terms : OpenOffer) (ht : terms.state = .available) :
    OfferView.ofOwn quotes o terms = .ok { view with triggerPrice := terms.triggerPrice } ∧ view.triggerPrice = 0 ∧
      view.id = o.id := by
  have hview := h
  obtain ⟨price, _, hv⟩ := bind_eq_ok.mp h
  cases hv
  refine ⟨bind_eq_ok.mpr ⟨_, hview, ?_⟩, rfl, rfl⟩
  simp [OpenOffer.isDeactivated, ht, pure, Except.pure]

theorem showMine_withPlaced {p : CreateParams} {o : Offer} {view : OfferView} (hd : (n.draftOffer p).2 = .ok o)
    (hview : OfferView.ofOffer (n.withPlaced p o).quotes { o with state := .available } true = .ok view) :
    view.triggerPrice = 0 ∧
      showMine (n.withPlaced p o) view.id = .ok (viewJson { view with triggerPrice := p.triggerPrice }) := by
  let terms : OpenOffer := { offer := n.registry.offers.nextNumber, triggerPrice := p.triggerPrice }
  obtain ⟨hown, htrigger, hid⟩ := ofOwn_of_ofOffer hview terms rfl
  refine ⟨htrigger, bind_eq_ok.mpr ⟨_, reported_eq_ok.mpr (hid ▸ getMyOpenOffer_withPlaced hd), ?_⟩⟩
  have hownView : ownView (n.withPlaced p o)
    ⟨n.registry.openOffers.nextNumber, terms, { o with state := .available }⟩ =
      .ok { view with triggerPrice := p.triggerPrice } := computed_eq_ok.mpr hown
  rw [hownView]
  rfl

theorem reply_placed (n : Node) (p : CreateParams) (o : Offer) (requestId : Option String) :
    reply (n.withPlaced p o) requestId .created (.ok (.placed n.registry.offers.nextNumber)) =
      sent (answer requestId 201
        (viewJson <$> computed
          (OfferView.ofOffer (n.withPlaced p o).quotes { o with state := .available } true))) := by
  have hrecord : (n.withPlaced p o).registry.offer? n.registry.offers.nextNumber = _ := offer?_placed_filed ..
  have hdata : replyData (n.withPlaced p o) .created (.placed n.registry.offers.nextNumber) =
      viewJson <$> computed (OfferView.ofOffer (n.withPlaced p o).quotes { o with state := .available } true) := by
    unfold replyData
    dsimp only
    rw [hrecord]
  rw [← hdata]
  rfl

theorem reply_created {p : CreateParams} (requestId : Option String)
    (h : (reply (n.perform (.create p)).1 requestId .created (n.perform (.create p)).2).status = 201) :
    ∃ o view, (n.draftOffer p).2 = .ok o ∧ (n.perform (.create p)).1 = n.withPlaced p o ∧
      OfferView.ofOffer (n.withPlaced p o).quotes { o with state := .available } true = .ok view ∧
      (viewJson view).isSendable = true ∧
      (reply (n.perform (.create p)).1 requestId .created (n.perform (.create p)).2).data? =
        some (viewJson view) := by
  have herror := @create_error_status n p
  have hcreation := n.perform_creation p
  generalize n.perform (.create p) = m at h herror hcreation ⊢
  have hfailed : ∀ e, m.2 ≠ .error e := by
    intro e he
    obtain ⟨_, hs⟩ := sent_isSuccess (WebResponse.isSuccess_created h)
    rw [reply, hs, he] at h
    cases e with
    | service e => exact herror he h
    | breakdown b => cases h
  cases hcreation with
  | undrafted _ => exact absurd rfl (hfailed _)
  | invalid _ _ => exact absurd rfl (hfailed _)
  | taken _ _ => exact absurd rfl (hfailed _)
  | @placed o hd _ _ =>
    rw [reply_placed] at h ⊢
    obtain ⟨hsend, hs⟩ := sent_isSuccess (WebResponse.isSuccess_created h)
    rw [hs] at h ⊢
    cases hview : OfferView.ofOffer (n.withPlaced p o).quotes { o with state := .available } true with
    | error b =>
      rw [hview] at h
      cases h
    | ok view =>
      rw [hview] at hsend
      exact ⟨o, view, hd, rfl, hview, (Bool.and_eq_true_iff.mp hsend).2, rfl⟩

/-! ### Creating and looking -/

theorem exchange_created (hroute : Routing.route r.method r.path = .found .create)
    (h : (exchange password configured n r).2.status = 201) :
    configured = true ∧ ∃ v b, bodyJson r.body = .ok v ∧ readBody CreateBody.fields v = .ok b ∧
      exchange password configured n r = ((n.perform (.create b.params)).1,
        reply (n.perform (.create b.params)).1 r.requestId .created (n.perform (.create b.params)).2) := by
  unfold exchange handle dispatch at h ⊢
  rw [hroute] at h ⊢
  dsimp only at h ⊢
  rcases attend_create password configured n r with
    ⟨response, hattend, hstatus⟩ | ⟨hservice, v, b, hbody, hread, hattend⟩
  · rw [hattend] at h
    exact absurd (sentTo_isSuccess (WebResponse.isSuccess_created h)) hstatus
  · rw [hattend]
    exact ⟨hservice, v, b, hbody, hread, rfl⟩

theorem exchange_showMine {id : String} (hroute : Routing.route r.method r.path = .found (.showMine id))
    (hmethod : r.method = "GET") (hpassword : r.password = some password) :
    exchange password true n r = (n, sent (answer r.requestId 200 (showMine n id))) := by
  have hattend : attend password true n r (.showMine id) =
      .ok (.answered (answer r.requestId 200 (showMine n id))) := by
    have hcheck : checkPassword password r = .ok () := if_pos hpassword
    change (do
      checkPassword password r
      pure (Handling.answered (answer r.requestId 200 (showMine n id)))) = _
    rw [hcheck]
    rfl
  unfold exchange handle dispatch
  rw [hroute]
  dsimp only
  rw [hattend]
  dsimp only
  rw [sentTo, if_neg (by rw [hmethod]; decide)]

theorem viewJson_trigger {view : OfferView} {t : Int} :
    viewJson { view with triggerPrice := t } = viewJson view ↔ t = view.triggerPrice := by
  constructor
  · intro h
    have hfield : (Json.integer t) = .integer view.triggerPrice :=
      Option.some.inj (congrArg (Json.field? · "trigger_price") h)
    exact Json.integer.inj hfield
  · rintro rfl
    rfl

/-- **A created offer is shown again, but for its trigger price.** In every state of the node and
for every request that creates an offer: whoever then asks for it gets, field by field, what the
creation was answered with, except that the creation shows no trigger price. So the two answers
agree exactly if none was sent. -/
theorem created_shown {post : WebRequest} (hroute : Routing.route post.method post.path = .found .create)
    (h : (exchange password configured n post).2.status = 201) :
    ∃ v b view, bodyJson post.body = .ok v ∧ readBody CreateBody.fields v = .ok b ∧ view.triggerPrice = 0 ∧
      (exchange password configured n post).2.data? = some (viewJson view) ∧
      ∀ get : WebRequest, Routing.route get.method get.path = .found (.showMine view.id) → get.method = "GET" →
        get.password = some password →
        ∃ response, exchange password configured (exchange password configured n post).1 get =
            ((exchange password configured n post).1, response) ∧ response.status = 200 ∧
          response.data? = some (viewJson { view with triggerPrice := b.triggerPrice }) ∧
          (response.data? = (exchange password configured n post).2.data? ↔ b.triggerPrice = 0) := by
  obtain ⟨rfl, v, b, hbody, hread, hexchange⟩ := exchange_created hroute h
  rw [hexchange] at h ⊢
  obtain ⟨o, view, hd, hafter, hview, hsend, hdata⟩ := reply_created post.requestId h
  obtain ⟨htrigger, hshow⟩ := showMine_withPlaced hd hview
  refine ⟨v, b, view, hbody, hread, htrigger, hdata, fun get hget hmethod hpassword => ?_⟩
  have hsent : exchange password true (n.perform (.create b.params)).1 get = ((n.perform (.create b.params)).1,
      success get.requestId 200 (viewJson { view with triggerPrice := b.triggerPrice })) := by
    rw [exchange_showMine hget hmethod hpassword, hafter, hshow]
    exact congrArg _ (sent_success _ _ ((sendable_trigger view _).trans hsend))
  refine ⟨_, hsent, rfl, rfl, ?_⟩
  rw [hdata, ← htrigger, ← viewJson_trigger]
  exact Option.some_inj

def offerRequest : WebRequest :=
  { method := "POST", path := "/api/v1/offers", password := some "secret"
    body := "\x7b\"currency_code\":\"EUR\",\"direction\":\"BUY\",\"use_market_based_price\":true," ++
      "\"trigger_price\":5,\"amount\":2,\"min_amount\":1,\"payment_account_id\":\"account-1\"\x7d" }

def lookRequest : WebRequest :=
  { method := "GET", path := "/api/v1/offers/mine/gen-1", password := some "secret" }

def created : Node × WebResponse := exchange "secret" true euroTrader offerRequest

def looked : Node × WebResponse := exchange "secret" true created.1 lookRequest

def shownField? (name : String) (response : WebResponse) : Option String :=
  (response.data?.bind (·.field? name)).map Json.shown

theorem created_fields : created.2.status = 201 ∧ shownField? "id" created.2 = some "gen-1" ∧
    shownField? "trigger_price" created.2 = some "0" ∧ looked.2.status = 200 ∧
    shownField? "trigger_price" looked.2 = some "5" := by decide +kernel

theorem created_shown_looked : ∃ view t, created.2.data? = some (viewJson view) ∧ looked.2.status = 200 ∧
    looked.2.data? = some (viewJson { view with triggerPrice := t }) := by
  have hroute : Routing.route offerRequest.method offerRequest.path = .found .create := by decide +kernel
  obtain ⟨hstatus, hid, _⟩ := created_fields
  obtain ⟨v, b, view, _, _, _, hdata, hlook⟩ := created_shown hroute hstatus
  have hname : view.id = "gen-1" := by
    have hdata' : created.2.data? = some (viewJson view) := hdata
    unfold shownField? at hid
    rw [hdata'] at hid
    exact Option.some.inj hid
  have hget : Routing.route lookRequest.method lookRequest.path = .found (.showMine view.id) := by
    rw [hname]
    decide +kernel
  obtain ⟨response, hlooked, hok, hagain, _⟩ := hlook lookRequest hget rfl rfl
  have hresponse : looked.2 = response := congrArg Prod.snd hlooked
  exact ⟨view, b.triggerPrice, hdata, hresponse ▸ hok, hresponse ▸ hagain⟩

/-- A trigger price that is sent is not shown by the answer to the creation. -/
theorem created_trigger_hidden :
    created.2.status = 201 ∧ looked.2.status = 200 ∧ looked.2.data? ≠ created.2.data? := by
  obtain ⟨hcreated, _, hhidden, hlooked, hshown⟩ := created_fields
  refine ⟨hcreated, hlooked, fun hsame => ?_⟩
  have hfield : shownField? "trigger_price" looked.2 = shownField? "trigger_price" created.2 := by
    unfold shownField?
    rw [hsame]
  rw [hhidden, hshown] at hfield
  exact absurd hfield (by decide)

end WebServer

end Tradepost
