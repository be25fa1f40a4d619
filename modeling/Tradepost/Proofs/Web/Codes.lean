import Tradepost.Proofs.Filter
import Tradepost.Proofs.Node.Compared
import Tradepost.Proofs.Node.Origin
import Tradepost.Proofs.Text.Blank
import Tradepost.Proofs.Web.Created

/-!
# Which codes a request to create may carry

The codes of a currency and of an account are checked for spaces anywhere and
for blanks at their ends. Other white space is let through between the ends, and
from there it comes into an offer if the account lists such a currency.
-/

namespace Tradepost

open Text

/-! ## Values that are read -/

namespace Checked

variable {α β : Type}

/-- Whatever is read has the property. -/
def Yields (P : α → Prop) (x : Checked α) : Prop := ∀ a, x.outcome = .ok a → P a

theorem Yields.map {P : β → Prop} {f : α → β} {x : Checked α} (h : Yields (fun a => P (f a)) x) :
    Yields P (f <$> x) := by
  intro b hb
  have hmap : x.outcome.map f = .ok b := hb
  cases hx : x.outcome with
  | error issues =>
    rw [hx] at hmap
    cases hmap
  | ok a =>
    rw [hx] at hmap
    exact Except.ok.inj hmap ▸ h a hx

theorem Yields.field {P : β → Prop} {Q : α → Prop} {f : Checked (α → β)} {x : Checked α}
    (hf : Yields (fun g => ∀ a, Q a → P (g a)) f) (hx : Yields Q x) : Yields P (f <*> x) := by
  intro b hb
  have hboth : (both f x).outcome = .ok b := hb
  unfold both at hboth
  split at hboth
  · rename_i g a hg ha
    exact Except.ok.inj hboth ▸ hf g hg a (hx a ha)
  all_goals cases hboth

theorem Yields.other {P : β → Prop} {f : Checked (α → β)} {x : Checked α} (hf : Yields (fun g => ∀ a, P (g a)) f) :
    Yields P (f <*> x) :=
  Yields.field (Q := fun _ => True) (fun g hg a _ => hf g hg a) fun _ _ => trivial

theorem yields_required {v : Json} {name : String} {check : Json → Except Problem α} :
    Yields (fun a => ∃ x, v.field? name = some x ∧ check x = .ok a) (required v name (one check)) := by
  intro a h
  unfold required under at h
  dsimp only at h
  split at h
  · rename_i x hx
    refine ⟨x, hx, ?_⟩
    unfold one at h
    cases hcheck : check x with
    | error p =>
      rw [hcheck] at h
      cases h
    | ok b =>
      rw [hcheck] at h
      exact congrArg Except.ok (Except.ok.inj h)
  · cases h

end Checked

/-! ## Codes -/

theorem isCode_iff {s : String} : isCode s = true ↔ Tight s.toList := by
  unfold isCode
  rw [Bool.and_eq_true, Bool.and_eq_true, Bool.not_eq_true', Bool.not_eq_true', decide_eq_true_eq, eq_comm (a := s),
    strip_eq_self_iff, Bool.eq_false_iff, Bool.eq_false_iff, Ne, Ne, String.isEmpty_iff, List.contains_iff_mem,
    ← String.toList_eq_nil_iff]
  exact ⟨fun ⟨⟨hne, hfirst, hlast⟩, hspace⟩ => ⟨hne, hfirst, hlast, hspace⟩,
    fun h => ⟨⟨h.nonempty, h.first, h.last⟩, h.spaceless⟩⟩

theorem codeText_eq_ok {v : Json} {s : String} : codeText v = .ok s ↔ v = .text s ∧ Tight s.toList := by
  unfold codeText
  rw [bind_eq_ok]
  constructor
  · rintro ⟨t, ht, h⟩
    by_cases hcode : isCode t = true
    · rw [if_pos hcode] at h
      obtain rfl : t = s := Except.ok.inj h
      refine ⟨?_, isCode_iff.mp hcode⟩
      cases v with
      | text u => exact congrArg Json.text (Except.ok.inj ht)
      | _ => cases ht
    · rw [if_neg hcode] at h
      cases h
  · rintro ⟨rfl, h⟩
    exact ⟨s, rfl, if_pos (isCode_iff.mpr h)⟩

section

open Checked

theorem yields_code (v : Json) (name : String) :
    Yields (fun s => v.field? name = some (.text s) ∧ Tight s.toList) (required v name (one codeText)) := by
  intro s hs
  obtain ⟨x, hx, hcheck⟩ := yields_required s hs
  obtain ⟨rfl, htight⟩ := codeText_eq_ok.mp hcheck
  exact ⟨hx, htight⟩

theorem yields_currency (v : Json) :
    Yields (fun b => v.field? "currency_code" = some (.text b.currency) ∧ Tight b.currency.toList)
      (CreateBody.fields v) := by
  unfold CreateBody.fields
  repeat with_reducible apply Yields.other
  refine Yields.map fun s hs => ?_
  beta_reduce
  intros
  exact yields_code v _ s hs

theorem yields_account (v : Json) :
    Yields (fun b => v.field? "payment_account_id" = some (.text b.account) ∧ Tight b.account.toList)
      (CreateBody.fields v) := by
  unfold CreateBody.fields
  apply Yields.other
  refine Yields.field ?_ (yields_code v _)
  repeat with_reducible apply Yields.other
  refine Yields.map fun _ _ => ?_
  beta_reduce
  intros
  assumption

end

/-! ## Offers that a request creates -/

namespace Node

variable {n : Node} {p : CreateParams} {o : Offer}

theorem draftOffer_sides (hd : (n.draftOffer p).2 = .ok o) :
    (∀ code ∈ [o.payload.baseCurrency, o.payload.counterCurrency], code = bitcoin ∨ code = upper p.currency) ∧
      o.payload.currency = upper p.currency := by
  obtain ⟨t, f, hdrafted⟩ := draftOffer_drafted hd
  obtain ⟨hcurrency, _⟩ := readTerms_ok hdrafted.terms
  obtain ⟨hbase, hcounter⟩ := hdrafted.currencies
  rw [← hcurrency]
  by_cases hfiat : Currency.isFiat t.currency = true
  · rw [if_pos hfiat] at hbase hcounter
    refine ⟨?_, (Payload.currency_fiat hbase).trans hcounter⟩
    rw [hbase, hcounter]
    simp
  · rw [if_neg hfiat] at hbase hcounter
    refine ⟨?_, (Payload.currency_crypto hcounter).trans hbase⟩
    rw [hbase, hcounter]
    simp

theorem draftOffer_listed (hd : (n.draftOffer p).2 = .ok o) :
    ∃ a, n.accounts.lookup p.account = some a ∧ o.payload.makerAccount = a.id ∧
      ∃ listed ∈ a.currencies, (Blankless listed ↔ Blankless (upper p.currency)) := by
  obtain ⟨a, hlookup, hid, hfits⟩ := draftOffer_account hd
  obtain ⟨_, listed, hmem, hsame⟩ := PaymentAccount.fits_iff.mp hfits
  refine ⟨a, hlookup, hid, listed, hmem, ?_⟩
  rw [← blankless_upper, hsame, blankless_upper, (draftOffer_sides hd).2]

end Node

namespace WebServer

open Node

variable {password : String} {configured : Bool} {n : Node} {r : WebRequest}

def createdOffer? (password : String) (configured : Bool) (n : Node) (r : WebRequest) : Option Offer :=
  match handle password configured n r with
  | .answered _ => none
  | .taken c =>
    match n.perform c.call with
    | (m, .ok (.placed k)) => m.registry.offer? k
    | _ => none

theorem readBody_eq_ok {α : Type} {fields : Json → Checked α} {v : Option Json} {b : α}
    (h : readBody fields v = .ok b) : ∃ x, v = some x ∧ (fields x).outcome = .ok b := by
  unfold readBody at h
  dsimp only at h
  cases v with
  | none => cases h
  | some x =>
    refine ⟨x, rfl, ?_⟩
    unfold ofObject Checked.under at h
    dsimp only at h
    split at h
    · cases hfields : (fields _).outcome with
      | error issues =>
        rw [hfields] at h
        cases h
      | ok a =>
        rw [hfields] at h
        exact congrArg Except.ok (Except.ok.inj h)
    · cases h

theorem createdOffer?_eq_some (hroute : Routing.route r.method r.path = .found .create) {o : Offer}
    (h : createdOffer? password configured n r = some o) :
    ∃ v b d, bodyJson r.body = .ok (some v) ∧ (CreateBody.fields v).outcome = .ok b ∧
      (n.draftOffer b.params).2 = .ok d ∧ o = { d with state := .available } := by
  unfold createdOffer? handle dispatch at h
  rw [hroute] at h
  dsimp only at h
  rcases attend_create password configured n r with ⟨response, hattend, _⟩ | ⟨_, v, b, hbody, hread, hattend⟩
  · rw [hattend] at h
    cases h
  · rw [hattend] at h
    dsimp only at h
    obtain ⟨x, rfl, hfields⟩ := readBody_eq_ok hread
    have hcreation := n.perform_creation b.params
    generalize n.perform (.create b.params) = m at h hcreation
    cases hcreation with
    | undrafted _ | invalid _ _ | taken _ _ => cases h
    | @placed d hd _ _ =>
      refine ⟨x, b, d, hbody, hfields, hd, ?_⟩
      exact (Option.some.inj ((offer?_placed_filed ..).symm.trans h)).symm

theorem tight_bitcoin : Tight bitcoin.toList := isCode_iff.mp (by decide)

theorem blankless_bitcoin : Blankless bitcoin := by
  have h : (bitcoin.toList.all fun c => !isBlank c) = true := by decide
  simpa [Blankless, List.all_eq_true] using h

theorem createdOffer?_codes (hroute : Routing.route r.method r.path = .found .create) {o : Offer}
    (h : createdOffer? password configured n r = some o) :
    ∃ id a, n.accounts.lookup id = some a ∧ o.payload.makerAccount = a.id ∧
      ∃ listed ∈ a.currencies, ∀ code ∈ [o.payload.baseCurrency, o.payload.counterCurrency],
        Tight code.toList ∧ (Blankless listed → Blankless code) := by
  obtain ⟨v, b, d, _, hfields, hd, rfl⟩ := createdOffer?_eq_some hroute h
  obtain ⟨a, hlookup, hid, listed, hmem, hblankless⟩ := draftOffer_listed hd
  refine ⟨b.account, a, hlookup, hid, listed, hmem, fun code hcode => ?_⟩
  rcases (draftOffer_sides hd).1 code hcode with rfl | rfl
  · exact ⟨tight_bitcoin, fun _ => blankless_bitcoin⟩
  · exact ⟨(yields_currency v b hfields).2.upper, hblankless.mp⟩

/-- **Accepted codes have no space and no blank at either end.** They are accepted exactly if they
are so and not empty. The codes of the offers that are created are so as well; and they hold another
blank only if the account lists a currency with one. -/
theorem accepted_codes (v : Json) (password : String) (configured : Bool) (n : Node) (r : WebRequest) :
    (∀ s, codeText v = .ok s ↔ v = .text s ∧ Tight s.toList) ∧
    (∀ b, (CreateBody.fields v).outcome = .ok b →
      (v.field? "currency_code" = some (.text b.currency) ∧ Tight b.currency.toList) ∧
        (v.field? "payment_account_id" = some (.text b.account) ∧ Tight b.account.toList)) ∧
    ∀ o, Routing.route r.method r.path = .found .create → createdOffer? password configured n r = some o →
      ∃ id a, n.accounts.lookup id = some a ∧ o.payload.makerAccount = a.id ∧
        ∃ listed ∈ a.currencies, ∀ code ∈ [o.payload.baseCurrency, o.payload.counterCurrency],
          Tight code.toList ∧ (Blankless listed → Blankless code) :=
  ⟨fun _ => codeText_eq_ok, fun b hb => ⟨yields_currency v b hb, yields_account v b hb⟩,
    fun _ hroute ho => createdOffer?_codes hroute ho⟩

def tabbed : Node := { accounts := .ofList [{ id := "account-1", method := "SEPA", currencies := ["X\tY"] }] }

def tabbedBody : String :=
  "\x7b\"currency_code\":\"x\\ty\",\"direction\":\"BUY\",\"price\":\"1\",\"amount\":2,\"min_amount\":1," ++
    "\"payment_account_id\":\"account-1\"\x7d"

def tabbedRequest : WebRequest := { offerRequest with body := tabbedBody }

theorem tabbed_created : Routing.route tabbedRequest.method tabbedRequest.path = .found .create ∧
    (createdOffer? "secret" true tabbed tabbedRequest).map
      (fun o => [o.payload.baseCurrency, o.payload.counterCurrency]) =
      some ["X\tY", "BTC"] := by decide +kernel

theorem accepted_codes_tabbed : codeText (.text "x\ty") = .ok "x\ty" ∧
    ∃ o, createdOffer? "secret" true tabbed tabbedRequest = some o ∧
      Tight o.payload.baseCurrency.toList ∧ Tight o.payload.counterCurrency.toList := by
  obtain ⟨haccepted, _, hcreated⟩ := accepted_codes (.text "x\ty") "secret" true tabbed tabbedRequest
  obtain ⟨hroute, hcodes⟩ := tabbed_created
  obtain ⟨o, ho, _⟩ := Option.map_eq_some_iff.mp hcodes
  obtain ⟨_, _, _, _, _, _, htight⟩ := hcreated o hroute ho
  refine ⟨(haccepted _).mpr ⟨rfl, isCode_iff.mp (by decide)⟩, o, ho, (htight _ ?_).1, (htight _ ?_).1⟩
  · exact List.mem_cons_self ..
  · exact List.mem_cons_of_mem _ (List.mem_cons_self ..)

theorem inner_blank_accepted : (codeText (.text "x\ty")).toOption = some "x\ty" ∧ ¬ Blankless "x\ty" ∧
    ∃ o, createdOffer? "secret" true tabbed tabbedRequest = some o ∧ ¬ Blankless o.payload.baseCurrency := by
  have hblank (s : String) (h : '\t' ∈ s.toList) : ¬ Blankless s := fun hs => absurd (hs _ h) (by decide)
  refine ⟨by decide, hblank _ (by decide), ?_⟩
  obtain ⟨o, ho, hbase⟩ := Option.map_eq_some_iff.mp tabbed_created.2
  exact ⟨o, ho, hblank _ (by rw [(List.cons.inj hbase).1]; decide)⟩

end WebServer

end Tradepost
