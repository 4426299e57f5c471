import Mathlib.Data.List.Induction
import Mathlib.Data.List.Nodup
import Mathlib.Logic.Relation
import StackFlow.Lock.Lease
import StackFlow.Proofs.Commands

/-!
Leases under any interleaving. Any number of clients contend for one key, each with a token of its own;
between any two steps the key may run out, and other keys may change. The history of grants, returns
and expiries tells what the key holds, so what is safe about the key is a fact about histories. Main
statement: `leases_are_safe`.
-/

namespace StackFlow

namespace Lease

open Server (Command)

/-! ## One try and one return -/

section Commands

variable {s : Server} {space name token : String} {canceled : Bool}

/-- A try fails and changes nothing, or it is the first to set the key, or the key is there. -/
theorem request_cases (space name token : String) (canceled : Bool) (s : Server) :
    (∃ e, request space name token canceled s = .error e s) ∨
    (s.find? (keyOf space name) = none ∧
      request space name token canceled s = .ok true (s.put (keyOf space name) (.text token))) ∨
    ((s.find? (keyOf space name)).isSome ∧ request space name token canceled s = .ok false s) := by
  cases canceled with
  | true => exact .inl ⟨.canceled, rfl⟩
  | false =>
    cases out : s.outage with
    | some reason => exact .inl ⟨_, bind_error _ (Command.look_outage out _)⟩
    | none =>
      have ran := Command.setIfAbsent_answers out (keyOf space name) token
      cases holds : s.find? (keyOf space name) with
      | none =>
        rw [holds] at ran
        exact .inr (.inl ⟨rfl, ran⟩)
      | some h =>
        rw [holds] at ran
        exact .inr (.inr ⟨rfl, ran⟩)

/-- A return fails and changes nothing, or it drops the key if that holds the token. -/
theorem giveBack_cases (space name token : String) (canceled : Bool) (s : Server) :
    (∃ e, giveBack space name token canceled s = .error e s) ∨
    giveBack space name token canceled s =
      .ok () (if s.find? (keyOf space name) = some (.text token) then s.remove (keyOf space name)
        else s) := by
  cases canceled with
  | true => exact .inl ⟨.canceled, rfl⟩
  | false =>
    cases out : s.outage with
    | some reason => exact .inl ⟨_, bind_error _ (bind_error _ (Command.look_outage out _))⟩
    | none =>
      have ran := Command.deleteIfHolds_answers out (keyOf space name) token
      rcases holds : s.find? (keyOf space name) with _ | t | ms
      · rw [holds] at ran
        exact .inr (ran.trans (by simp))
      · rw [holds] at ran
        exact .inr (ran.trans (by simp))
      · rw [holds] at ran
        exact .inl ⟨_, ran⟩

end Commands

/-! ## Contests -/

/-- How a client stands. -/
inductive Standing where
  | trying
  /-- It was granted the lease and has not given it back. -/
  | holding
  | returned
  /-- It has given up, or failed. -/
  | gone
deriving DecidableEq

structure Client where
  token : String
  standing : Standing

/-- What happens to a key. -/
inductive Happening where
  | granted (token : String)
  | returned (token : String)
  | expired
deriving DecidableEq

/-- Clients that contend for one key, and what has happened to it so far. -/
structure Contest where
  server : Server := {}
  clients : List Client := []
  history : List Happening := []

namespace Contest

variable (space name : String)

/-- A client has tried to get the lease. -/
def tried (c : Contest) (k : Nat) (token : String) (canceled : Bool) : Contest :=
  match request space name token canceled c.server with
  | .ok true server =>
    { server, clients := c.clients.set k ⟨token, .holding⟩, history := c.history ++ [.granted token] }
  | .ok false server => { c with server }
  | .error _ server => { c with server, clients := c.clients.set k ⟨token, .gone⟩ }

/-- A client has run the script that gives the lease back. -/
def unlocked (c : Contest) (k : Nat) (token : String) (canceled : Bool) : Contest :=
  match giveBack space name token canceled c.server with
  | .ok _ server =>
    { server, clients := c.clients.set k ⟨token, .returned⟩, history := c.history ++ [.returned token] }
  | .error _ server => { c with server }

inductive Step (c : Contest) : Contest → Prop where
  | joins (token : String) (fresh : ∀ x ∈ c.clients, x.token ≠ token) :
    Step c { c with clients := c.clients ++ [⟨token, .trying⟩] }
  | tries (k : Nat) (token : String) (canceled : Bool) (here : c.clients[k]? = some ⟨token, .trying⟩) :
    Step c (c.tried space name k token canceled)
  | givesUp (k : Nat) (token : String) (here : c.clients[k]? = some ⟨token, .trying⟩) :
    Step c { c with clients := c.clients.set k ⟨token, .gone⟩ }
  /-- The script may run more than once. -/
  | unlocks (k : Nat) (x : Client) (canceled : Bool) (here : c.clients[k]? = some x)
    (granted : x.standing = .holding ∨ x.standing = .returned) :
    Step c (c.unlocked space name k x.token canceled)
  | expires (present : c.server.find? (keyOf space name) ≠ none) :
    Step c { c with server := expire space name c.server, history := c.history ++ [.expired] }
  /-- Other keys change, and the server stops or starts to answer. -/
  | elsewhere (server : Server)
    (same : server.find? (keyOf space name) = c.server.find? (keyOf space name)) :
    Step c { c with server }

def Runs : Contest → Contest → Prop := Relation.ReflTransGen (Step space name)

end Contest

/-! ## Histories -/

def Happening.after (held : Option String) : Happening → Option String
  | .granted t => some t
  | .returned t => if held = some t then none else held
  | .expired => none

/-- Whose token the key holds after what has happened. -/
def holder (history : List Happening) : Option String := history.foldl Happening.after none

/-- The lease is granted only where nobody holds it, and to a token only once. -/
def Orderly (history : List Happening) : Prop :=
  ∀ h₁ t h₂, history = h₁ ++ .granted t :: h₂ → holder h₁ = none ∧ .granted t ∉ h₁

section Histories

variable {h h₁ h₂ : List Happening} {t : String}

theorem holder_snoc (h : List Happening) (last : Happening) :
    holder (h ++ [last]) = last.after (holder h) := by
  rw [holder, List.foldl_append, List.foldl_cons, List.foldl_nil, holder]

/-- Whoever holds the lease was granted it, and nothing has come in between. -/
theorem holder_since (held : holder h = some t) :
    ∃ h₁ h₂, h = h₁ ++ .granted t :: h₂ ∧ .expired ∉ h₂ ∧ .returned t ∉ h₂ := by
  induction h using List.reverseRecOn with
  | nil => cases held
  | append_singleton h last ih =>
    rw [holder_snoc] at held
    cases last with
    | granted t' =>
      cases held
      exact ⟨h, [], rfl, by simp, by simp⟩
    | returned t' =>
      rw [Happening.after] at held
      split at held
      · cases held
      · rename_i other
        obtain ⟨h₁, h₂, rfl, live, kept⟩ := ih held
        refine ⟨h₁, h₂ ++ [.returned t'], by simp, by simp [live], ?_⟩
        rw [List.mem_append, List.mem_singleton]
        rintro (before | same)
        · exact kept before
        · cases same
          exact other held
    | expired => cases held

theorem orderly_snoc {last : Happening} (orderly : Orderly h)
    (new : ∀ t, last = .granted t → holder h = none ∧ .granted t ∉ h) : Orderly (h ++ [last]) := by
  intro h₁ t h₂ split
  rcases List.eq_nil_or_concat h₂ with rfl | ⟨h₃, x, rfl⟩
  · obtain ⟨rfl, same⟩ := List.append_inj' split rfl
    exact new t (List.cons.inj same).1
  · rw [List.concat_eq_append, ← List.cons_append, ← List.append_assoc] at split
    obtain ⟨rfl, -⟩ := List.append_inj' split rfl
    exact orderly h₁ t h₃ rfl

/-- As long as a lease neither runs out nor is given back, it is held. -/
theorem held_since (orderly : Orderly (h₁ ++ .granted t :: h₂)) (live : .expired ∉ h₂)
    (kept : .returned t ∉ h₂) :
    holder (h₁ ++ .granted t :: h₂) = some t ∧ ∀ t', .granted t' ∉ h₂ := by
  induction h₂ using List.reverseRecOn with
  | nil => exact ⟨holder_snoc h₁ (.granted t), by simp⟩
  | append_singleton h₂ last ih =>
    rw [List.mem_append, List.mem_singleton, not_or] at live kept
    have before : Orderly (h₁ ++ .granted t :: h₂) := by
      intro g₁ t' g₂ split
      exact orderly g₁ t' (g₂ ++ [last]) (by rw [← List.cons_append, ← List.append_assoc, split]; simp)
    obtain ⟨held, alone⟩ := ih before live.1 kept.1
    rw [← List.cons_append, ← List.append_assoc, holder_snoc, held]
    cases last with
    | granted t' =>
      -- nobody is granted a lease that is held
      have free := (orderly (h₁ ++ .granted t :: h₂) t' [] (by simp)).1
      cases free.symm.trans held
    | returned t' =>
      refine ⟨if_neg fun same => ?_, fun u => by simp [alone u]⟩
      cases same
      exact kept.2 rfl
    | expired => exact absurd rfl live.2

theorem granted_once {g₁ g₂ : List Happening} (orderly : Orderly h)
    (first : h = h₁ ++ .granted t :: h₂) (second : h = g₁ ++ .granted t :: g₂) : h₂ = g₂ := by
  have early := (orderly h₁ t h₂ first).2
  have early' := (orderly g₁ t g₂ second).2
  rcases List.append_eq_append_iff.mp (first.symm.trans second) with
    ⟨_ | ⟨x, between⟩, later, rest⟩ | ⟨_ | ⟨x, between⟩, later, rest⟩
  · exact (List.cons.inj rest).2
  · obtain ⟨rfl, -⟩ := List.cons.inj rest
    exact absurd (by simp [later]) early'
  · exact (List.cons.inj rest).2.symm
  · obtain ⟨rfl, -⟩ := List.cons.inj rest
    exact absurd (by simp [later]) early

/-- A lease that has run out is never held again under its token. -/
theorem not_held_after (orderly : Orderly (h₁ ++ .granted t :: h₂)) (ended : .expired ∈ h₂) :
    holder (h₁ ++ .granted t :: h₂) ≠ some t := by
  intro held
  obtain ⟨g₁, g₂, split, live, _⟩ := holder_since held
  rw [granted_once orderly rfl split] at ended
  exact live ended

end Histories

/-! ## Fairness -/

/-- What the history has to say about the token of a client. -/
def Standing.Fits (h : List Happening) (t : String) : Standing → Prop
  | trying | gone => .granted t ∉ h ∧ .returned t ∉ h
  | holding => .granted t ∈ h ∧ .returned t ∉ h
  | returned => .granted t ∈ h ∧ .returned t ∈ h

/-- Whether two histories tell the same about a token. -/
def Alike (h h' : List Happening) (t : String) : Prop :=
  (.granted t ∈ h' ↔ .granted t ∈ h) ∧ (.returned t ∈ h' ↔ .returned t ∈ h)

namespace Contest

/-- What holds in every contest on the way. -/
structure Fair (space name : String) (c : Contest) : Prop where
  distinct : (c.clients.map Client.token).Nodup
  key : c.server.find? (keyOf space name) = (holder c.history).map Holding.text
  orderly : Orderly c.history
  /-- What was given back is not held. -/
  settled : ∀ t, .returned t ∈ c.history → holder c.history ≠ some t
  known : ∀ t, .granted t ∈ c.history ∨ .returned t ∈ c.history → t ∈ c.clients.map Client.token
  fits : ∀ x ∈ c.clients, x.standing.Fits c.history x.token

variable {space name token : String} {c c' : Contest} {k : Nat} {old new : Standing}

theorem fits_alike {h h' : List Happening} {t : String} {a : Standing} (alike : Alike h h' t) :
    a.Fits h' t ↔ a.Fits h t := by
  cases a <;> simp only [Standing.Fits, alike.1, alike.2]

theorem tokens_set (here : c.clients[k]? = some ⟨token, old⟩) :
    (c.clients.set k ⟨token, new⟩).map Client.token = c.clients.map Client.token := by
  rw [List.map_set]
  refine List.ext_getElem? fun j => ?_
  rw [List.getElem?_set]
  split
  · rename_i same
    subst same
    simp only [List.length_map, List.getElem?_map, here]
    split
    · rfl
    · rename_i beyond
      exact absurd (List.getElem?_eq_some_iff.mp here).1 beyond
  · rfl

theorem others_apart (distinct : (c.clients.map Client.token).Nodup)
    (here : c.clients[k]? = some ⟨token, old⟩) {x : Client}
    (member : x ∈ c.clients.set k ⟨token, new⟩) :
    x = ⟨token, new⟩ ∨ (x ∈ c.clients ∧ x.token ≠ token) := by
  obtain ⟨j, there⟩ := List.mem_iff_getElem?.mp member
  rw [List.getElem?_set] at there
  split at there
  · split at there
    · exact .inl (Option.some.inj there).symm
    · cases there
  · rename_i elsewhere
    refine .inr ⟨List.mem_of_getElem? there, fun same => elsewhere ?_⟩
    have bound := (List.getElem?_eq_some_iff.mp here).1
    exact (List.getElem?_inj (by rwa [List.length_map]) distinct).mp (by simp [here, there, same])

/-- A client comes to stand otherwise, and the history goes on with nothing about another token. -/
theorem fair_set (fair : c.Fair space name) (here : c.clients[k]? = some ⟨token, old⟩)
    {server : Server} {h : List Happening}
    (key : server.find? (keyOf space name) = (holder h).map Holding.text) (orderly : Orderly h)
    (settled : ∀ t, .returned t ∈ h → holder h ≠ some t)
    (others : ∀ t ≠ token, Alike c.history h t) (fits : new.Fits h token) :
    Fair space name ⟨server, c.clients.set k ⟨token, new⟩, h⟩ where
  distinct := by
    rw [tokens_set here]
    exact fair.distinct
  key := key
  orderly := orderly
  settled := settled
  known := by
    intro t told
    rw [tokens_set here]
    by_cases same : t = token
    · subst same
      exact List.mem_map.mpr ⟨_, List.mem_of_getElem? here, rfl⟩
    · obtain ⟨granted, returned⟩ := others t same
      exact fair.known t (told.imp granted.mp returned.mp)
  fits := by
    intro x member
    rcases others_apart fair.distinct here member with rfl | ⟨there, apart⟩
    · exact fits
    · exact (fits_alike (others x.token apart)).mpr (fair.fits x there)

theorem key_text (fair : c.Fair space name) {t : String} :
    c.server.find? (keyOf space name) = some (.text t) ↔ holder c.history = some t := by
  rw [fair.key]
  cases holder c.history <;> simp

theorem alike_refl (h : List Happening) (t : String) : Alike h h t := ⟨Iff.rfl, Iff.rfl⟩

theorem fair_granted (fair : c.Fair space name) (here : c.clients[k]? = some ⟨token, .trying⟩)
    (absent : c.server.find? (keyOf space name) = none) :
    Fair space name ⟨c.server.put (keyOf space name) (.text token),
      c.clients.set k ⟨token, .holding⟩, c.history ++ [.granted token]⟩ := by
  have fits := fair.fits _ (List.mem_of_getElem? here)
  have free : holder c.history = none := by
    rw [fair.key] at absent
    exact Option.map_eq_none_iff.mp absent
  refine fair_set fair here ?_ (orderly_snoc fair.orderly ?_) ?_ ?_ ?_
  · rw [Server.find?_put, if_pos rfl, holder_snoc]
    rfl
  · rintro t ⟨⟩
    exact ⟨free, fits.1⟩
  · intro t returned held
    rw [holder_snoc] at held
    cases held
    rcases List.mem_append.mp returned with before | last
    · exact fits.2 before
    · simp at last
  · intro t apart
    simp [Alike, apart]
  · simp [Standing.Fits, fits.2]

theorem fair_returned (fair : c.Fair space name) (here : c.clients[k]? = some ⟨token, old⟩)
    (granted : old = .holding ∨ old = .returned) :
    Fair space name ⟨if c.server.find? (keyOf space name) = some (.text token) then
        c.server.remove (keyOf space name) else c.server,
      c.clients.set k ⟨token, .returned⟩, c.history ++ [.returned token]⟩ := by
  have fits := fair.fits _ (List.mem_of_getElem? here)
  have held : .granted token ∈ c.history := by
    rcases granted with rfl | rfl <;> exact fits.1
  refine fair_set fair here ?_ (orderly_snoc fair.orderly (by simp)) ?_ ?_ ?_
  · simp only [holder_snoc, Happening.after, key_text fair]
    split
    · rw [Server.find?_remove, if_pos rfl]
      rfl
    · exact fair.key
  · intro t returned
    rw [holder_snoc, Happening.after]
    split
    · simp
    · rename_i apart
      rcases List.mem_append.mp returned with before | last
      · exact fair.settled t before
      · rw [List.mem_singleton, Happening.returned.injEq] at last
        rwa [last]
  · intro t apart
    simp [Alike, apart]
  · simp [Standing.Fits, held]

theorem fair_expired (fair : c.Fair space name) : Fair space name
    ⟨expire space name c.server, c.clients, c.history ++ [.expired]⟩ where
  distinct := fair.distinct
  key := by
    rw [expire, Server.find?_remove, if_pos rfl, holder_snoc]
    rfl
  orderly := orderly_snoc fair.orderly (by simp)
  settled := by
    intro t _
    rw [holder_snoc]
    simp [Happening.after]
  known := fun t told => fair.known t (by simpa using told)
  fits := fun x member => (fits_alike (by simp [Alike])).mpr (fair.fits x member)

theorem fair_joined (fair : c.Fair space name) (fresh : ∀ x ∈ c.clients, x.token ≠ token) :
    Fair space name { c with clients := c.clients ++ [⟨token, .trying⟩] } := by
  have unknown : token ∉ c.clients.map Client.token := by
    intro member
    obtain ⟨x, there, same⟩ := List.mem_map.mp member
    exact fresh x there same
  refine ⟨?_, fair.key, fair.orderly, fair.settled, ?_, ?_⟩
  · rw [List.map_append, List.nodup_append]
    refine ⟨fair.distinct, by simp, ?_⟩
    rintro t member _ new rfl
    rw [List.map_singleton, List.mem_singleton] at new
    rw [new] at member
    exact unknown member
  · intro t told
    rw [List.map_append]
    exact List.mem_append_left _ (fair.known t told)
  · intro x member
    rcases List.mem_append.mp member with before | new
    · exact fair.fits x before
    · rw [List.mem_singleton.mp new]
      exact ⟨fun told => unknown (fair.known token (.inl told)),
        fun told => unknown (fair.known token (.inr told))⟩

theorem fair_step (fair : c.Fair space name) (step : Step space name c c') :
    c'.Fair space name := by
  cases step with
  | joins token fresh => exact fair_joined fair fresh
  | tries k token canceled here =>
    have fits := fair.fits _ (List.mem_of_getElem? here)
    rcases request_cases space name token canceled c.server with ⟨e, ran⟩ | ⟨absent, ran⟩ | ⟨_, ran⟩
    · rw [tried, ran]
      exact fair_set fair here fair.key fair.orderly fair.settled (fun t _ => alike_refl _ t) fits
    · rw [tried, ran]
      exact fair_granted fair here absent
    · rw [tried, ran]
      exact fair
  | givesUp k token here =>
    have fits := fair.fits _ (List.mem_of_getElem? here)
    exact fair_set fair here fair.key fair.orderly fair.settled (fun t _ => alike_refl _ t) fits
  | unlocks k x canceled here granted =>
    rcases giveBack_cases space name x.token canceled c.server with ⟨e, ran⟩ | ran
    · rw [unlocked, ran]
      exact fair
    · rw [unlocked, ran]
      exact fair_returned fair here granted
  | expires present => exact fair_expired fair
  | elsewhere server same =>
    exact ⟨fair.distinct, same.trans fair.key, fair.orderly, fair.settled, fair.known, fair.fits⟩

/-! ## Main statement -/

/-- Nothing has happened to the key, and the clients have tokens of their own. -/
structure Opening (space name : String) (c : Contest) : Prop where
  absent : c.server.find? (keyOf space name) = none
  distinct : (c.clients.map Client.token).Nodup
  trying : ∀ x ∈ c.clients, x.standing = .trying
  quiet : c.history = []

theorem fair_opening (opening : c.Opening space name) : c.Fair space name where
  distinct := opening.distinct
  key := by
    rw [opening.absent, opening.quiet]
    rfl
  orderly := by simp [Orderly, opening.quiet]
  settled := by simp [opening.quiet]
  known := by simp [opening.quiet]
  fits := by
    intro x member
    rw [opening.trying x member, opening.quiet]
    simp [Standing.Fits]

theorem fair_runs {c₀ : Contest} (opening : c₀.Opening space name) (run : Runs space name c₀ c) :
    c.Fair space name := by
  induction run with
  | refl => exact fair_opening opening
  | tail _ step ih => exact fair_step ih step

/-- What a lease is for. -/
structure Safe (space name : String) (c : Contest) : Prop where
  /-- A client whose lease has run out changes nothing when it gives it back. -/
  stale : ∀ k x canceled, c.clients[k]? = some x →
    (∃ h₁ h₂, c.history = h₁ ++ .granted x.token :: h₂ ∧ .expired ∈ h₂) →
    (c.unlocked space name k x.token canceled).server = c.server
  /-- The key holds the token of a client that was granted the lease and has not given it back. -/
  owned : ∀ h, c.server.find? (keyOf space name) = some h → ∃ x ∈ c.clients,
    h = .text x.token ∧ .granted x.token ∈ c.history ∧ .returned x.token ∉ c.history
  /-- Until a lease runs out or is given back, it is granted to nobody else. -/
  alone : ∀ h₁ t h₂, c.history = h₁ ++ .granted t :: h₂ → .expired ∉ h₂ → .returned t ∉ h₂ →
    c.server.find? (keyOf space name) = some (.text t) ∧ ∀ t', .granted t' ∉ h₂

theorem safe_fair (fair : c.Fair space name) : c.Safe space name where
  stale := by
    rintro k x canceled here ⟨h₁, h₂, split, ended⟩
    rcases giveBack_cases space name x.token canceled c.server with ⟨e, ran⟩ | ran
    · rw [unlocked, ran]
    · have gone := not_held_after (split ▸ fair.orderly) ended
      rw [← split] at gone
      rw [unlocked, ran, if_neg fun own => gone ((key_text fair).mp own)]
  owned := by
    intro h present
    rw [fair.key] at present
    obtain ⟨t, held, rfl⟩ := Option.map_eq_some_iff.mp present
    obtain ⟨h₁, h₂, split, _⟩ := holder_since held
    have granted : .granted t ∈ c.history := by simp [split]
    obtain ⟨x, member, rfl⟩ := List.mem_map.mp (fair.known t (.inl granted))
    exact ⟨x, member, rfl, granted, fun returned => fair.settled _ returned held⟩
  alone := by
    intro h₁ t h₂ split live kept
    obtain ⟨held, alone⟩ := held_since (split ▸ fair.orderly) live kept
    rw [fair.key, split, held]
    exact ⟨rfl, alone⟩

end Contest

end Lease

open Lease

/-- Whatever the clients do in whatever order, and whenever the key runs out, leases are safe. -/
theorem leases_are_safe {space name : String} {c₀ c : Contest} (opening : c₀.Opening space name)
    (run : Contest.Runs space name c₀ c) : c.Safe space name :=
  Contest.safe_fair (Contest.fair_runs opening run)

/-- Two clients that contend for one key. -/
def rivals : Contest := { clients := [⟨"x", .trying⟩, ⟨"y", .trying⟩] }

/-- One has the lease and the other waits until it runs out; then the first one gives back what is no
longer its own. -/
theorem rivals_safe : rivals.Opening "" "a" ∧ ∃ c, Contest.Runs "" "a" rivals c ∧
    c.history = [.granted "x", .expired, .granted "y"] ∧ c.Safe "" "a" ∧
    (c.unlocked "" "a" 0 "x" false).server.find? (keyOf "" "a") = some (.text "y") := by
  have opening : rivals.Opening "" "a" := ⟨rfl, by decide, by decide, rfl⟩
  let held := rivals.tried "" "a" 0 "x" false
  let waited := held.tried "" "a" 1 "y" false
  let later : Contest := { waited with
    server := expire "" "a" waited.server, history := waited.history ++ [.expired] }
  let last := later.tried "" "a" 1 "y" false
  have run : Contest.Runs "" "a" rivals last :=
    (((Relation.ReflTransGen.single (.tries 0 "x" false rfl)).tail (.tries 1 "y" false rfl)).tail
      (.expires (by decide))).tail (.tries 1 "y" false rfl)
  have safe := leases_are_safe opening run
  refine ⟨opening, last, run, rfl, safe, ?_⟩
  rw [safe.stale 0 ⟨"x", .holding⟩ false rfl ⟨[], [.expired, .granted "y"], rfl, by simp⟩]
  exact (safe.alone [.granted "x", .expired] "y" [] rfl (by simp) (by simp)).1

end StackFlow
