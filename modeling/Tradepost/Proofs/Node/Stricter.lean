import Tradepost.Proofs.Filter
import Tradepost.Proofs.Node.Found

/-!
# Listings under a stricter filter

A filter that bans more takes offers out of a listing and leaves the others
where they were, whatever they cost and however they are sorted.
-/

namespace Tradepost.Node

open Listing OfferFilter

variable {n : Node} {f g : OfferFilter} {direction currency : String}

def under (n : Node) (f : OfferFilter) : Node := { n with filter := f }

theorem shows_under (o : Offer) : (n.under f).shows direction currency o =
    ((!o.isOwnedBy n.fingerprint && o.matches direction currency) && f.canTake n.accounts o) := rfl

theorem shows_stricter (h : g.StricterThan f) (o : Offer) : (n.under g).shows direction currency o =
    (g.canTake n.accounts o && (n.under f).shows direction currency o) := by
  rw [shows_under, shows_under, Bool.and_comm]
  cases hg : g.canTake n.accounts o with
  | false => rfl
  | true => rw [h.canTake hg, Bool.and_true]

theorem sorted_stricter (h : g.StricterThan f) {L : List (Nat × Offer)}
    (hL : (n.under f).sorted direction currency = .ok L) :
    (n.under g).sorted direction currency = .ok (L.filter fun e => g.canTake n.accounts e.2) := by
  have hshown : (n.snapshotOffers.filter fun e => (n.under f).shows direction currency e.2).filter
      (fun e => g.canTake n.accounts e.2) =
        n.snapshotOffers.filter fun e => (n.under g).shows direction currency e.2 := by
    rw [List.filter_filter]
    exact List.filter_congr fun e _ => (shows_stricter h e.2).symm
  -- what a listing leaves out may be left out before it is sorted
  have hsorted := sortByPrice_filter hL fun e => g.canTake n.accounts e.2
  rwa [show (n.under f).snapshotOffers = n.snapshotOffers from rfl, hshown] at hsorted

/-- **A stricter filter only takes offers out.** For every node, with whatever it has in its book,
its accounts and its quotes: the listing under the stricter filter is what that filter takes of the
listing before, in the order of the listing before; and what was refused before is refused still. -/
theorem stricter_listing (h : g.StricterThan f) (n : Node) (direction currency : String) :
    (∀ L, (n.under f).getOffers direction currency = .ok L →
      (n.under g).getOffers direction currency = .ok (L.filter fun e => g.canTake n.accounts e.2)) ∧
    ∀ o, f.canTake n.accounts o = false → g.canTake n.accounts o = false := by
  refine ⟨fun L hL => ?_, fun o ho => ?_⟩
  · obtain ⟨hd, hsorted⟩ := getOffers_eq_ok.mp hL
    exact getOffers_eq_ok.mpr ⟨hd, sorted_stricter h hsorted⟩
  · rw [Bool.eq_false_iff] at ho ⊢
    exact fun hg => ho (h.canTake hg)

theorem stricter_listing_reannounced :
    (OfferFilter.ban ["peer-2"] ["USD", "CHF"] [] []).StricterThan (.ban [] ["chf"] [] []) ∧
    ∃ L, (reannounced.under (.ban [] ["chf"] [] [])).getOffers "BUY" "EUR" = .ok L ∧
      L.map idOf = ["peer-2", "peer-1"] ∧
      (reannounced.under (.ban ["peer-2"] ["USD", "CHF"] [] [])).getOffers "BUY" "EUR" =
        .ok [(3, (following "peer-1" .zero).attached)] := by
  have h : (OfferFilter.ban ["peer-2"] ["USD", "CHF"] [] []).StricterThan (.ban [] ["chf"] [] []) :=
    ⟨by decide +kernel, by decide +kernel, by decide +kernel, by decide +kernel⟩
  have hL : (reannounced.under (.ban [] ["chf"] [] [])).getOffers "BUY" "EUR" =
      .ok [(1, (following "peer-2" tenth).attached), (3, (following "peer-1" .zero).attached)] := by decide +kernel
  refine ⟨h, _, hL, by decide, ((stricter_listing h reannounced "BUY" "EUR").1 _ hL).trans ?_⟩
  decide +kernel

end Tradepost.Node
