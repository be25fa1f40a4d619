import Tradepost.Number.Decimal

/-!
# What a call can fail with

Every error the node reports has a message, a code and an HTTP status. Codes
in the thousands tell the area: 1 access, 2 wallet, 3 payment accounts,
4 offers, 9 the node itself.
-/

namespace Tradepost

inductive ServiceError where
  | general (code : Int) (message : String) (status : Int)
  | notFound (message : String) (code : Int)
  | invalidArgument (message : String) (code : Int)
  | invalidState (message : String) (code : Int)
  | wrongPassword
  | walletUnavailable (detail : String)
  | walletLocked
  | accountNotFound (account : String)
  | accountMismatch (currency account : String)
  | offerNotFound (offer : String) (reason : Option String)
  | invalidPrice (price : String)
  | invalidDirection (direction : String)
  | invalidEdit (detail : String)
  | placement (detail : String)
  | registry (phase detail : String)
  | internal (detail : String)
deriving DecidableEq, Repr

/-- What the caller can do about an error: look elsewhere, send something else,
or wait for another state of the node. -/
inductive ErrorFamily where
  | notFound
  | invalidArgument
  | invalidState
deriving DecidableEq, Repr

namespace ServiceError

def message : ServiceError → String
  | general _ m _ | notFound m _ | invalidArgument m _ | invalidState m _ => m
  | wrongPassword => "Invalid or missing API password"
  | walletUnavailable detail => detail
  | walletLocked => "wallet is locked"
  | accountNotFound account => s!"payment account with id {account} not found"
  | accountMismatch currency account =>
    s!"cannot create {currency} offer with payment account {account}"
  | offerNotFound offer reason =>
    let plain := "offer with id '" ++ offer ++ "' not found"
    match reason with
    | none => plain
    | some r => if r.isEmpty then plain else plain ++ ": " ++ r
  | invalidPrice price => "'" ++ price ++ "' is not a valid price"
  | invalidDirection direction => "'" ++ direction ++ "' is not a valid direction"
  | invalidEdit detail | placement detail | internal detail => detail
  | registry phase detail => s!"{phase} failed: {detail}"

def code : ServiceError → Int
  | general c _ _ | notFound _ c | invalidArgument _ c | invalidState _ c => c
  | wrongPassword => 1001
  | walletUnavailable _ => 2001
  | walletLocked => 2002
  | accountNotFound _ => 3001
  | accountMismatch _ _ => 3002
  | offerNotFound _ _ => 4004
  | invalidPrice _ => 4001
  | invalidDirection _ => 4002
  | invalidEdit _ => 4003
  | placement _ => 4010
  | registry _ _ => 4020
  | internal _ => 9002

def family? : ServiceError → Option ErrorFamily
  | notFound _ _ | offerNotFound _ _ => some .notFound
  | invalidArgument _ _ | accountNotFound _ | invalidPrice _ | invalidDirection _
  | invalidEdit _ => some .invalidArgument
  | invalidState _ _ | walletUnavailable _ | walletLocked | accountMismatch _ _
  | placement _ => some .invalidState
  | general _ _ _ | wrongPassword | registry _ _ | internal _ => none

def httpStatus : ServiceError → Int
  | general _ _ status => status
  | wrongPassword => 401
  | registry _ _ => 502
  | internal _ => 500
  | e =>
    match e.family? with
    | some .notFound => 404
    | some .invalidArgument => 400
    | some .invalidState => 422
    | none => 500

end ServiceError

inductive Failure where
  | service (error : ServiceError)
  | breakdown (cause : Breakdown)
deriving DecidableEq, Repr

abbrev Outcome (α : Type) : Type := Except Failure α

theorem bind_eq_ok {ε α β : Type} {x : Except ε α} {f : α → Except ε β} {b : β} :
    x >>= f = .ok b ↔ ∃ a, x = .ok a ∧ f a = .ok b := by
  constructor
  · intro h
    cases x with
    | error e => cases h
    | ok a => exact ⟨a, rfl, h⟩
  · rintro ⟨a, rfl, h⟩
    exact h

theorem bind_eq_error {ε α β : Type} {x : Except ε α} {f : α → Except ε β} {e : ε} :
    x >>= f = .error e ↔ x = .error e ∨ ∃ a, x = .ok a ∧ f a = .error e := by
  constructor
  · intro h
    cases x with
    | error e =>
      cases h
      exact .inl rfl
    | ok a => exact .inr ⟨a, rfl, h⟩
  · rintro (rfl | ⟨a, rfl, h⟩)
    · rfl
    · exact h

def computed {α : Type} (x : Except Breakdown α) : Outcome α := x.mapError .breakdown

def reported {α : Type} (x : Except ServiceError α) : Outcome α := x.mapError .service

theorem guard_eq_ok {ε β : Type} {c : Bool} {x : Except ε Unit} {f : Unit → Except ε β} {b : β} :
    (if c = true then x >>= f else f ()) = .ok b ↔ (c = true → x = .ok ()) ∧ f () = .ok b := by
  cases c with
  | true => simp only [ite_true, bind_eq_ok, true_imp_iff]; exact ⟨fun ⟨(), h⟩ => h, fun h => ⟨(), h⟩⟩
  | false => simp

@[simp]
theorem computed_eq_ok {α : Type} {x : Except Breakdown α} {a : α} : computed x = .ok a ↔ x = .ok a := by
  cases x with
  | error e => exact ⟨nofun, nofun⟩
  | ok b => exact ⟨fun h => congrArg Except.ok (Except.ok.inj h), fun h => congrArg Except.ok (Except.ok.inj h)⟩

@[simp]
theorem reported_eq_ok {α : Type} {x : Except ServiceError α} {a : α} : reported x = .ok a ↔ x = .ok a := by
  cases x with
  | error e => exact ⟨nofun, nofun⟩
  | ok b => exact ⟨fun h => congrArg Except.ok (Except.ok.inj h), fun h => congrArg Except.ok (Except.ok.inj h)⟩

end Tradepost
