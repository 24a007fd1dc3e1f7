import Mathlib.Data.List.Basic

/-!
# The token service

`JwtService` signs payloads and verifies tokens. A token is a string; what the panel relies
on is that `verify` accepts exactly the unexpired strings this server signed and returns the
payload they were signed for. The service therefore keeps what it has signed, and the field
`functional` says that one string was signed for one payload only. The string that `sign`
returns is chosen by the environment; a string that would collide with another signed token
cannot come out of an HMAC and is refused.
-/

namespace Panel

/-- The payloads the panel signs. The access token of a login has `email` and `rootAdmin`,
the token of an impersonation has `impersonatedBy` too, and the token issued between the
two factors has a `purpose` and nothing else beside `sub`. -/
structure JwtPayload where
  sub : String
  email : Option String
  rootAdmin : Option Bool
  impersonatedBy : Option String
  purpose : Option String
deriving DecidableEq, Repr

namespace JwtPayload

/-- `{ sub, email, rootAdmin }`. -/
def access (sub email : String) (rootAdmin : Bool) : JwtPayload :=
  ⟨sub, some email, some rootAdmin, none, none⟩

/-- `{ sub, email, rootAdmin, impersonatedBy }`. -/
def impersonation (sub email : String) (rootAdmin : Bool) (adminId : String) : JwtPayload :=
  ⟨sub, some email, some rootAdmin, some adminId, none⟩

/-- `{ sub, purpose: 'two-factor' }`. -/
def twoFactor (sub : String) : JwtPayload := ⟨sub, none, none, none, some "two-factor"⟩

end JwtPayload

/-- A signed token: the string, its payload and the expiry in seconds. -/
structure IssuedToken where
  token : String
  payload : JwtPayload
  exp : Nat
deriving DecidableEq, Repr

structure JwtService where
  issued : List IssuedToken
  functional : ∀ a ∈ issued, ∀ b ∈ issued, a.token = b.token → a = b

namespace JwtService

/-- Nothing signed yet. -/
def fresh : JwtService := ⟨[], fun _ h => nomatch h⟩

/-- One token signed. -/
def single (a : IssuedToken) : JwtService := ⟨[a], by simp⟩

/-- `jwtService.sign(payload, { expiresIn })` returning the given string. -/
def sign (j : JwtService) (token : String) (payload : JwtPayload) (exp : Nat) :
    Option JwtService :=
  if h : ∀ a ∈ j.issued, a.token = token → a = ⟨token, payload, exp⟩ then
    some
      { issued := ⟨token, payload, exp⟩ :: j.issued
        functional := by
          intro a ha b hb heq
          rcases List.mem_cons.mp ha with rfl | ha <;> rcases List.mem_cons.mp hb with rfl | hb
          · rfl
          · exact (h b hb heq.symm).symm
          · exact h a ha heq
          · exact j.functional a ha b hb heq }
  else none

/-- `jwtService.verify(token)`: the payload of an unexpired token this service signed. -/
def verify (j : JwtService) (now : Nat) (token : String) : Option JwtPayload :=
  (j.issued.find? fun a => a.token == token && now < a.exp).map IssuedToken.payload

theorem sign_eq_some {j j' : JwtService} {token : String} {payload : JwtPayload} {exp : Nat}
    (h : j.sign token payload exp = some j') :
    ∀ a, a ∈ j'.issued ↔ a = ⟨token, payload, exp⟩ ∨ a ∈ j.issued := by
  unfold sign at h
  split at h
  next =>
    cases h
    exact fun a => List.mem_cons
  next => cases h

theorem verify_eq_some {j : JwtService} {now : Nat} {token : String} {payload : JwtPayload} :
    j.verify now token = some payload ↔
      ∃ a ∈ j.issued, a.token = token ∧ a.payload = payload ∧ now < a.exp := by
  constructor
  · intro h
    obtain ⟨a, hfind, hpayload⟩ := Option.map_eq_some_iff.mp h
    have hsat := List.find?_some hfind
    simp only [Bool.and_eq_true, beq_iff_eq, decide_eq_true_eq] at hsat
    exact ⟨a, List.mem_of_find?_eq_some hfind, hsat.1, hpayload, hsat.2⟩
  · rintro ⟨a, ha, rfl, rfl, hnow⟩
    cases hfind : j.issued.find? fun b => b.token == a.token && now < b.exp with
    | none =>
      have hnone := List.find?_eq_none.mp hfind a ha
      simp [hnow] at hnone
    | some b =>
      have hsat := List.find?_some hfind
      simp only [Bool.and_eq_true, beq_iff_eq, decide_eq_true_eq] at hsat
      have hba := j.functional b (List.mem_of_find?_eq_some hfind) a ha hsat.1
      rw [verify, hfind, hba]
      rfl

end JwtService

end Panel
