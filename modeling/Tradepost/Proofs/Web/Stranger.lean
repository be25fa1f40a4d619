import Tradepost.Proofs.Web.Created

/-!
# Requests without the password

The password is checked before anything of the node is looked at. So someone
who does not have it is always answered alike, whatever the node holds, and the
endpoints of the offers answer with an error.
-/

namespace Tradepost

/-! ## Where the offers are -/

namespace Routing

def UnderOffers (path : String) : Prop := "/api/v1/offers".toList <+: Text.marked (Percent.decoded path.toList)

instance (path : String) : Decidable (UnderOffers path) := inferInstanceAs (Decidable (_ <+: _))

theorem segments_underOffers (rest : List Char) :
    ∃ tail, segments ("/api/v1/offers".toList ++ rest) = some ("api" :: "v1" :: tail) := by
  have hpath : "/api/v1/offers".toList ++ rest =
      '/' :: ("api".toList ++ '/' :: ("v1".toList ++ '/' :: ("offers".toList ++ rest))) := rfl
  rw [hpath, segments, List.splitOn, List.splitOnP_append_cons _ _ (by decide),
    List.splitOnP_append_cons _ _ (by decide)]
  exact ⟨_, rfl⟩

theorem endpoints_guarded {tail : List String} {p : String × Endpoint}
    (h : p ∈ endpoints ("api" :: "v1" :: tail)) : WebServer.isOpen p.2 = false := by
  unfold endpoints at h
  split at h
  · rename_i hpath
    cases hpath
  · rename_i hpath
    exact absurd (List.cons.inj hpath).1 (by decide)
  · split at h
    · simp only [List.mem_cons, List.not_mem_nil, or_false] at h
      rcases h with rfl | rfl <;> rfl
    · cases h
  · split at h
    · cases h
    · simp only [List.mem_cons, List.not_mem_nil, or_false] at h
      rcases h with rfl | rfl
      · dsimp only
        split <;> rfl
      · rfl
  · rcases List.mem_append.mp h with h | h
    · split at h
      · rw [List.mem_singleton.mp h]
        rfl
      · cases h
    · split at h
      · rw [List.mem_singleton.mp h]
        rfl
      · cases h
  · cases h

theorem route_found {method path : String} {e : Endpoint} (h : route method path = .found e) :
    (method, e) ∈ endpointsOf (Text.marked (Percent.decoded path.toList)) := by
  unfold route at h
  dsimp only at h
  split at h
  · rename_i hlookup
    cases h
    obtain ⟨before, rest, heq, _⟩ := List.lookup_eq_some_iff.mp hlookup
    rw [heq]
    simp
  · split at h
    · cases h
    · split at h <;> cases h

theorem route_underOffers {method path : String} {e : Endpoint} (hpath : UnderOffers path)
    (h : route method path = .found e) : WebServer.isOpen e = false := by
  have hmem := route_found h
  obtain ⟨rest, hrest⟩ := hpath
  obtain ⟨tail, htail⟩ := segments_underOffers rest
  rw [← hrest, endpointsOf, htail] at hmem
  exact endpoints_guarded hmem

end Routing

/-! ## What a stranger is told -/

namespace WebServer

variable {password : String} {r : WebRequest}

/-- What is read of a body before the password is checked. -/
def readAhead (r : WebRequest) (e : Endpoint) : Except WebResponse (Option Json) :=
  if takesBody e then bodyJson r.body else pure none

theorem attend_eq {e : Endpoint} (he : isOpen e = false) (configured : Bool) (n : Node) :
    attend password configured n r e = (do
      let body ← readAhead r e
      checkPassword password r
      checkService configured r
      serve n r body e) := by
  unfold attend readAhead
  rw [he]
  cases takesBody e <;> rfl

theorem readAhead_refused {e : Endpoint} {response : WebResponse} (h : readAhead r e = .error response) :
    ¬ response.IsSuccess := by
  unfold readAhead at h
  split at h
  · exact bodyJson_refused h
  · cases h

theorem attend_guarded (h : r.password ≠ some password) {e : Endpoint} (he : isOpen e = false) :
    ∃ response, (∀ configured n, attend password configured n r e = .error response) ∧ ¬ response.IsSuccess := by
  cases hbody : readAhead r e with
  | error response =>
    refine ⟨response, fun configured n => ?_, readAhead_refused hbody⟩
    rw [attend_eq he, hbody]
    rfl
  | ok body =>
    -- the password comes before the service and the node
    have hpassword : checkPassword password r = .error (failure r.requestId (.service .wrongPassword)) := if_neg h
    refine ⟨_, fun configured n => ?_, checkPassword_refused hpassword⟩
    rw [attend_eq he, hbody, hpassword]
    rfl

theorem attend_open (password : String) (r : WebRequest) {e : Endpoint} (he : isOpen e = true) :
    ∃ response, ∀ configured n, attend password configured n r e = .ok (.answered response) := by
  cases e with
  | document | health => exact ⟨_, fun _ _ => rfl⟩
  | _ => cases he

theorem dispatch_stranger (h : r.password ≠ some password) (route : Routing) :
    ∃ response, (∀ configured n, dispatch password configured n r route = .answered response) ∧
      ((∀ e, route = .found e → isOpen e = false) → ¬ response.IsSuccess) := by
  cases route with
  | notFound | wrongMethod => exact ⟨_, fun _ _ => rfl, fun _ => by simp [WebResponse.IsSuccess, detail]⟩
  | redirect => exact ⟨_, fun _ _ => rfl, fun _ => by simp [WebResponse.IsSuccess]⟩
  | found e =>
    cases he : isOpen e with
    | false =>
      obtain ⟨response, hattend, hstatus⟩ := attend_guarded h he
      exact ⟨response, fun configured n => by rw [dispatch, hattend], fun _ => hstatus⟩
    | true =>
      obtain ⟨response, hattend⟩ := attend_open password r he
      refine ⟨response, fun configured n => by rw [dispatch, hattend], fun hguarded => ?_⟩
      exact absurd ((hguarded e rfl).symm.trans he) Bool.false_ne_true

theorem handle_stranger (h : r.password ≠ some password) :
    ∃ response, (∀ configured n, handle password configured n r = .answered response) ∧
      (Routing.UnderOffers r.path → ¬ response.IsSuccess) := by
  obtain ⟨response, hdispatch, hstatus⟩ := dispatch_stranger h (Routing.route r.method r.path)
  refine ⟨sentTo r.method response, fun configured n => by rw [handle, hdispatch], fun hpath hsent => ?_⟩
  exact hstatus (fun e he => Routing.route_underOffers hpath he) (sentTo_isSuccess hsent)

/-- **Without the password nothing is learnt and nothing changed.** A request that does not carry
the password is answered alike by any two nodes, whether or not they are ready to serve offers; it
changes none of them; and in the part of the offers it never succeeds. -/
theorem stranger_learns_nothing (h : r.password ≠ some password) (configured configured' : Bool) (n n' : Node) :
    (exchange password configured n r).2 = (exchange password configured' n' r).2 ∧
      (exchange password configured n r).1 = n ∧
      (Routing.UnderOffers r.path → ¬ (exchange password configured n r).2.IsSuccess) := by
  obtain ⟨response, hhandle, hstatus⟩ := handle_stranger h
  have hexchange : ∀ configured n, exchange password configured n r = (n, response) := by
    intro configured n
    rw [exchange, hhandle]
  rw [hexchange, hexchange]
  exact ⟨rfl, rfl, hstatus⟩

def guessRequest : WebRequest := { lookRequest with password := some "guess" }

theorem stranger_learns_nothing_guess :
    (exchange "secret" true created.1 guessRequest).2 = (exchange "secret" false Node.euroTrader guessRequest).2 ∧
      (exchange "secret" true created.1 guessRequest).1 = created.1 ∧
      ¬ (exchange "secret" true created.1 guessRequest).2.IsSuccess := by
  have hwrong : guessRequest.password ≠ some "secret" := by decide
  obtain ⟨hsame, hnode, hrefused⟩ := stranger_learns_nothing hwrong true false created.1 Node.euroTrader
  exact ⟨hsame, hnode, hrefused (by decide +kernel)⟩

end WebServer

end Tradepost
