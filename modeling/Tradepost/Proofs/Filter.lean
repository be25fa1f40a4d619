import Tradepost.Filter

/-!
# Which rule an offer breaks

An offer of somebody else can be taken if it breaks none of the rules, and the
reason it cannot be is the first rule that it breaks. A filter that bans more
only adds to what is broken.
-/

namespace Tradepost

open Text (upper)

def Refusal.order : List Refusal :=
  [.notAvailable, .offerBanned, .currencyBanned, .methodBanned, .ownerIgnored, .noAccount]

theorem Refusal.mem_order (r : Refusal) : r ∈ order := by cases r <;> decide

theorem Refusal.forall_iff {p : Refusal → Prop} : (∀ r, p r) ↔
    p .notAvailable ∧ p .offerBanned ∧ p .currencyBanned ∧ p .methodBanned ∧ p .ownerIgnored ∧ p .noAccount := by
  constructor
  · exact fun h => ⟨h _, h _, h _, h _, h _, h _⟩
  · rintro ⟨_, _, _, _, _, _⟩ r
    cases r <;> assumption

/-- An account serves an offer by its method and, in any letter case, one of its currencies. -/
theorem PaymentAccount.fits_iff {a : PaymentAccount} {p : Payload} : a.fits p = true ↔
    a.method = p.paymentMethod ∧ ∃ c ∈ a.currencies, upper c = upper p.currency := by
  unfold fits
  rw [Bool.and_eq_true, decide_eq_true_eq, List.contains_iff_mem, List.mem_map]

namespace OfferFilter

variable {f g : OfferFilter} {accounts : AccountStore} {o : Offer}

def Breaks (f : OfferFilter) (accounts : AccountStore) (o : Offer) : Refusal → Prop
  | .notAvailable => o.state ≠ .available
  | .offerBanned => o.id ∈ f.bannedIds
  | .currencyBanned => upper o.currency ∈ f.bannedCurrencies
  | .methodBanned => o.payload.paymentMethod ∈ f.bannedMethods
  | .ownerIgnored => o.payload.owner ∈ f.ignoredOwners
  | .noAccount => ¬ ∃ a ∈ accounts.all, a.fits o.payload = true

instance (f : OfferFilter) (accounts : AccountStore) (o : Offer) : DecidablePred (f.Breaks accounts o)
  | .notAvailable => inferInstanceAs (Decidable (o.state ≠ .available))
  | .offerBanned => inferInstanceAs (Decidable (o.id ∈ f.bannedIds))
  | .currencyBanned => inferInstanceAs (Decidable (upper o.currency ∈ f.bannedCurrencies))
  | .methodBanned => inferInstanceAs (Decidable (o.payload.paymentMethod ∈ f.bannedMethods))
  | .ownerIgnored => inferInstanceAs (Decidable (o.payload.owner ∈ f.ignoredOwners))
  | .noAccount => inferInstanceAs (Decidable (¬ ∃ a ∈ accounts.all, a.fits o.payload = true))

theorem find?_rule {p : Refusal → Prop} [DecidablePred p] (r : Refusal) (rest : List Refusal) :
    (r :: rest).find? (fun q => p q) = if p r then some r else rest.find? fun q => p q := by
  by_cases h : p r <;> simp [h]

theorem refusal?_eq : f.refusal? accounts o = Refusal.order.find? fun r => f.Breaks accounts o r := by
  have haccount : (!accounts.all.any (·.fits o.payload)) = true ↔ f.Breaks accounts o .noAccount := by
    simp [Breaks]
  unfold refusal? Refusal.order
  simp only [find?_rule, List.find?_nil, haccount, List.contains_iff_mem]
  rfl

/-- The first rule that an offer breaks: none of those before it is broken. -/
def FirstBroken (f : OfferFilter) (accounts : AccountStore) (o : Offer) (r : Refusal) : Prop :=
  f.Breaks accounts o r ∧ ∃ before after, Refusal.order = before ++ r :: after ∧
    ∀ q ∈ before, ¬ f.Breaks accounts o q

theorem refusal?_eq_some {r : Refusal} : f.refusal? accounts o = some r ↔ f.FirstBroken accounts o r := by
  rw [refusal?_eq, List.find?_eq_some_iff_append]
  simp only [decide_eq_true_eq, Bool.not_eq_true', decide_eq_false_iff_not]
  rfl

theorem refusal?_eq_none : f.refusal? accounts o = none ↔ ∀ r, ¬ f.Breaks accounts o r := by
  rw [refusal?_eq, List.find?_eq_none]
  simp [Refusal.mem_order]

theorem canTake_iff : f.canTake accounts o = true ↔ ∀ r, ¬ f.Breaks accounts o r := by
  rw [← refusal?_eq_none, canTake, Option.isNone_iff_eq_none]

theorem ban_refusal?_eq_none {ids currencies methods owners : List String} :
    (ban ids currencies methods owners).refusal? accounts o = none ↔
      o.state = .available ∧ o.id ∉ ids ∧ (∀ c ∈ currencies, upper c ≠ upper o.currency) ∧
        o.payload.paymentMethod ∉ methods ∧ o.payload.owner ∉ owners ∧
        ∃ a ∈ accounts.all, a.method = o.payload.paymentMethod ∧
          ∃ c ∈ a.currencies, upper c = upper o.currency := by
  have hcurrency : ¬ upper o.currency ∈ currencies.map upper ↔ ∀ c ∈ currencies, upper c ≠ upper o.currency := by
    simp
  rw [refusal?_eq_none, Refusal.forall_iff, ← hcurrency]
  simp only [Breaks, ban, Classical.not_not, PaymentAccount.fits_iff]
  rfl

/-! ## Filters that ban more -/

structure StricterThan (g f : OfferFilter) : Prop where
  ids : f.bannedIds ⊆ g.bannedIds
  currencies : f.bannedCurrencies ⊆ g.bannedCurrencies
  methods : f.bannedMethods ⊆ g.bannedMethods
  owners : f.ignoredOwners ⊆ g.ignoredOwners

theorem StricterThan.breaks (h : g.StricterThan f) {r : Refusal} (hr : f.Breaks accounts o r) :
    g.Breaks accounts o r := by
  cases r with
  | notAvailable => exact hr
  | offerBanned => exact h.ids hr
  | currencyBanned => exact h.currencies hr
  | methodBanned => exact h.methods hr
  | ownerIgnored => exact h.owners hr
  | noAccount => exact hr

theorem StricterThan.canTake (h : g.StricterThan f) (hg : g.canTake accounts o = true) :
    f.canTake accounts o = true :=
  canTake_iff.mpr fun r hr => canTake_iff.mp hg r (h.breaks hr)

end OfferFilter

end Tradepost
