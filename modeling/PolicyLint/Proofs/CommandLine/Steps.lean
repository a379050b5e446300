import PolicyLint.CommandLine.Program

/-!
# Steps on a system that keeps what is written

A system is seen through the files that it has been given, the last one first. A step leads from some of them
to a result and more files, whatever else the system remembers and whatever is on the console. Steps are
composed by `leads_bind`, so that each function of the program is gone through once.
-/
namespace PolicyLint.CommandLine
open Text
set_option autoImplicit false

/-- Paths and contents. -/
abbrev Files := List (String × String)

section Leads

variable {σ α β : Type} (written : σ → Files)

/-- On every system that has been given the files `before`, the step ends with a result and files of which
`post` holds. -/
def Leads (step : StateM σ α) (before : Files) (post : α → Files → Prop) : Prop :=
  ∀ s, written s = before → post (step.run s).1 (written (step.run s).2)

/-- `Leads` for steps that write to the console. -/
def ActLeads (a : Act (StateM σ) α) (before : Files) (post : α → Files → Prop) : Prop :=
  ∀ c, Leads written (a.run c) before fun r after => post r.1 after

/-- `Leads` for steps that may fail. -/
def AttemptLeads (a : Attempt (StateM σ) α) (before : Files) (post : Except Trail α → Files → Prop) : Prop :=
  ActLeads written a.run before post

end Leads

variable {σ α β : Type} {written : σ → Files} {before : Files}

namespace ActLeads

variable {a : Act (StateM σ) α} {mid post : α → Files → Prop}

theorem mono (h : ActLeads written a before mid) (hPost : ∀ x after, mid x after → post x after) :
    ActLeads written a before post := fun c s hs => hPost _ _ (h c s hs)

theorem pure {x : α} (h : post x before) : ActLeads written (pure x) before post := by
  rintro c s rfl
  exact h

theorem bind {f : α → Act (StateM σ) β} {post : β → Files → Prop} (h : ActLeads written a before mid)
    (hf : ∀ x after, mid x after → ActLeads written (f x) after post) :
    ActLeads written (a >>= f) before post :=
  fun c s hs => hf _ _ (h c s hs) _ _ rfl

theorem ask {step : StateM σ α} (h : Leads written step before post) :
    ActLeads written (Session.ask step) before post := fun _ => h

theorem print (text : String) :
    ActLeads written (Session.print text) before fun _ after => after = before := fun _ _ hs => hs

theorem printError (text : String) :
    ActLeads written (Session.printError text) before fun _ after => after = before := fun _ _ hs => hs

theorem log (s : Session (StateM σ)) (e : Event) :
    ActLeads written (s.log e) before fun _ after => after = before := by
  rw [Session.log]
  split
  · exact printError _
  · exact pure rfl

theorem logAll (s : Session (StateM σ)) (es : List Event) :
    ActLeads written (s.logAll es) before fun _ after => after = before := by
  induction es generalizing before with
  | nil => exact pure rfl
  | cons e es ih =>
    rw [Session.logAll]
    refine (log s e).bind ?_
    rintro _ _ rfl
    exact ih

end ActLeads

namespace AttemptLeads

variable {a : Attempt (StateM σ) α} {mid post : Except Trail α → Files → Prop}

theorem mono (h : AttemptLeads written a before mid) (hPost : ∀ x after, mid x after → post x after) :
    AttemptLeads written a before post := ActLeads.mono h hPost

theorem pure {x : α} (h : post (.ok x) before) : AttemptLeads written (pure x) before post := ActLeads.pure h

theorem throw {trail : Trail} (h : post (.error trail) before) :
    AttemptLeads written (throw trail : Attempt (StateM σ) α) before post := ActLeads.pure h

/-- A failure ends the steps that follow. -/
theorem bind {f : α → Attempt (StateM σ) β} {post : Except Trail β → Files → Prop}
    (h : AttemptLeads written a before mid)
    (hOk : ∀ x after, mid (.ok x) after → AttemptLeads written (f x) after post)
    (hError : ∀ trail after, mid (.error trail) after → post (.error trail) after) :
    AttemptLeads written (a >>= f) before post := by
  have hRest : ∀ r after, mid r after → ActLeads written (ExceptT.bindCont f r) after post := by
    rintro (trail | x) after hMid
    · exact ActLeads.pure (hError trail after hMid)
    · exact hOk x after hMid
  exact ActLeads.bind (f := ExceptT.bindCont f) h hRest

/-- As `bind`, for steps that do not fail. -/
theorem bind_ok {f : α → Attempt (StateM σ) β} {mid : α → Files → Prop}
    {post : Except Trail β → Files → Prop}
    (h : AttemptLeads written a before fun r after => ∃ x, r = .ok x ∧ mid x after)
    (hOk : ∀ x after, mid x after → AttemptLeads written (f x) after post) :
    AttemptLeads written (a >>= f) before post := by
  refine h.bind ?_ ?_
  · rintro x after ⟨_, ⟨⟩, hMid⟩
    exact hOk x after hMid
  · rintro _ _ ⟨x, ⟨⟩, -⟩

theorem always {act : Act (StateM σ) α} {mid : α → Files → Prop} (h : ActLeads written act before mid) :
    AttemptLeads written (Session.always act) before fun r after => ∃ x, r = .ok x ∧ mid x after :=
  ActLeads.bind h fun x _ hMid => ActLeads.pure ⟨x, rfl, hMid⟩

theorem attempt {headline : String} {step : StateM σ (Except SystemError α)} {x : α} {after : Files}
    (h : Leads written step before fun r files => r = .ok x ∧ files = after) :
    AttemptLeads written (Session.attempt headline step) before fun r files =>
      ∃ y, r = .ok y ∧ y = x ∧ files = after := by
  rw [Session.attempt]
  refine (always (.ask h)).bind_ok ?_
  rintro _ _ ⟨rfl, rfl⟩
  exact pure ⟨x, rfl, rfl, rfl⟩

theorem within {headline : String} {mid : α → Files → Prop}
    (h : AttemptLeads written a before fun r after => ∃ x, r = .ok x ∧ mid x after) :
    AttemptLeads written (Session.within headline a) before fun r after => ∃ x, r = .ok x ∧ mid x after := by
  refine ActLeads.bind h ?_
  rintro _ after ⟨x, rfl, hMid⟩
  exact ActLeads.pure ⟨x, rfl, hMid⟩

end AttemptLeads

end PolicyLint.CommandLine
