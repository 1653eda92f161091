import FormulaDesk.Proofs.Session.Failures
import FormulaDesk.Proofs.Session.Sending

/-! # The results tab without a result

Between operations that are completed the results tab has a result. A submission that starts on the
results tab takes the result away and leaves the tab, and until something comes back the tab is
`Bare`. Told here:

* `bare_after`, `bare_next`: what one operation and one event do to a bare tab;
* `bare_run_iff`: the tab is bare exactly while a submission `Lingers` that was sent from it;
* `results_tab_bare_iff`: the same along every course of a new session, and that a session which
  waits for nothing is never bare unless a submission was broken off.
-/

namespace FormulaDesk.Session

variable {s : Session} {c : Course} {events before during : List Event} {operation : Operation}

/-- The results tab is shown although there is no result. -/
def Bare (s : Session) : Prop := s.activeTab = .results ∧ s.result = none

/-! ## Operations -/

/-- Whether an operation selects another tab than the results tab. -/
def Operation.leaves : Operation → Bool
  | .selectTab (.str name) => (Tab.ofName? name).any fun tab => tab ≠ .results
  | _ => false

/-- Only a selection changes the tab. -/
theorem activeTab_after (h : ∀ tab, operation ≠ .selectTab tab) :
    (s.after operation).activeTab = s.activeTab := by
  have hform : ∀ form, (s.withForm form).2.activeTab = s.activeTab := by
    intro form
    rw [withForm_session]
  cases operation with
  | setExpression markup field =>
    rw [after_setExpression]
    split <;> rfl
  | update fields =>
    show (s.update fields).2.activeTab = s.activeTab
    rw [update_session]
  | selectTab tab => exact absurd rfl (h tab)
  | _ => exact hform _

/-- The tab after a selection: the results tab opens only if there is a result. -/
theorem selectTab_activeTab (s : Session) (tab : Json) :
    (s.selectTab tab).2.activeTab =
      match tab with
      | .str name =>
        match Tab.ofName? name with
        | some found => if found = .results ∧ s.result.isNone then s.activeTab else found
        | none => s.activeTab
      | _ => s.activeTab := by
  cases tab with
  | str name =>
    unfold selectTab
    dsimp only
    cases Tab.ofName? name with
    | none => rfl
    | some found =>
      dsimp only
      split <;> rfl
  | _ => rfl

theorem bare_after (s : Session) (operation : Operation) :
    (s.after operation).Bare ↔ s.Bare ∧ operation.leaves = false := by
  unfold Bare
  rw [(after_frame s operation).result]
  -- no operation touches the result, and only a selection touches the tab
  by_cases hselect : ∃ tab, operation = .selectTab tab
  · obtain ⟨tab, rfl⟩ := hselect
    have hafter : (s.after (.selectTab tab)).activeTab = (s.selectTab tab).2.activeTab := rfl
    rw [hafter, selectTab_activeTab]
    cases tab with
    | str name =>
      dsimp only [Operation.leaves]
      cases Tab.ofName? name with
      | none => simp
      | some found =>
        by_cases hresult : s.result = none
        · by_cases hfound : found = .results <;> simp [hresult, hfound]
        · simp [hresult]
    | _ => simp [Operation.leaves]
  · have hkeep : operation.leaves = false := by
      cases operation with
      | selectTab tab => exact absurd ⟨tab, rfl⟩ hselect
      | _ => rfl
    rw [activeTab_after fun tab h => hselect ⟨tab, h⟩, hkeep]
    simp

/-! ## Events -/

/-- A submission at this point of the course is sent. -/
def Course.Sends (c : Course) : Prop :=
  c.session.loading = false ∧ ∃ launched, c.session.started.launch = .ok launched

/-- An event leaves the tab to the last submission: no outcome arrives, no other tab is selected and
no further submission starts. -/
def Course.Waits (c : Course) : Event → Prop
  | .operate operation => operation.leaves = false
  | .submit => c.session.loading = true
  | .complete _ => c.waiting = none
  | .breakOff => True

/-- All events leave the tab to the last submission. -/
def Course.Lingers : Course → List Event → Prop
  | _, [] => True
  | c, event :: events => c.Waits event ∧ (c.next event).Lingers events

/-- The tab is bare after an event if the event sends a submission from the results tab, or if it
was bare and the event leaves it so. -/
theorem bare_next (c : Course) (event : Event) :
    (c.next event).session.Bare ↔
      (event = .submit ∧ c.Sends ∧ c.session.activeTab = .results) ∨
        (c.session.Bare ∧ c.Waits event) := by
  have hstep := c.step_next event
  generalize c.next event = d at hstep ⊢
  cases hstep with
  | operated operation => simp [bare_after, Course.Waits]
  | refused hloading => simp [Course.Sends, Course.Waits, hloading]
  | unsent failure hidle hlaunch =>
    -- nothing was sent, and the message is on the input tab
    simp [Bare, finished_error, Course.Sends, Course.Waits, hidle, hlaunch]
  | launched request sent hidle hlaunch =>
    have hsends : c.Sends := ⟨hidle, _, hlaunch⟩
    show c.session.activeTab = .results ∧ none = none ↔ _
    simp [Course.Waits, hsends, hidle]
  | stray event hend hfree =>
    cases event with
    | complete outcome => simp [Course.Waits, hfree]
    | breakOff => simp [Course.Waits]
    | _ => cases hend
  | completed request outcome hwaiting =>
    -- a reply is a result, and a failure is on the input tab
    have hcovered : ∀ result, ¬ (c.session.finished result).Bare := by
      intro result
      cases result <;> simp [Bare, finished_ok, finished_error]
    simp [Course.Waits, hwaiting, hcovered]
  | brokenOff request hwaiting => simp [Bare, Course.Waits]

/-- The tab is bare after a course if it was so before and stayed so, or if a submission was sent
from it and lingers. -/
theorem bare_run_iff (c : Course) (events : List Event) :
    (c.run events).session.Bare ↔
      (c.session.Bare ∧ c.Lingers events) ∨
        ∃ before during, events = before ++ .submit :: during ∧ (c.run before).Sends ∧
          (c.run before).session.activeTab = .results ∧
            ((c.run before).next .submit).Lingers during := by
  induction events generalizing c with
  | nil => simp [Course.Lingers]
  | cons event events ih =>
    show ((c.next event).run events).session.Bare ↔ _
    rw [ih, bare_next]
    constructor
    · rintro (⟨⟨rfl, hsends, htab⟩ | ⟨hbare, hwaits⟩, hlingers⟩ | ⟨before, during, rfl, hsent⟩)
      · exact .inr ⟨[], events, rfl, hsends, htab, hlingers⟩
      · exact .inl ⟨hbare, hwaits, hlingers⟩
      · exact .inr ⟨event :: before, during, rfl, hsent⟩
    · rintro (⟨hbare, hwaits, hlingers⟩ | ⟨before, during, heq, hsends, htab, hlingers⟩)
      · exact .inl ⟨.inr ⟨hbare, hwaits⟩, hlingers⟩
      · -- the submission is the first event or one of the others
        cases before with
        | nil =>
          cases heq
          exact .inl ⟨.inl ⟨rfl, hsends, htab⟩, hlingers⟩
        | cons first before =>
          cases heq
          exact .inr ⟨before, during, rfl, hsends, htab, hlingers⟩

/-! ## Along the course of a session -/

variable {m : Method} {client : Client}

/-- A complete form is sent unless it holds an infinity or `nan`. -/
theorem Course.Sound.sends_iff (h : c.Sound m client) :
    c.Sends ↔ c.session.loading = false ∧ (Json.obj c.session.form).isFinite = true := by
  have hcomplete : c.session.started.IsComplete := h.complete
  unfold Course.Sends
  constructor
  · rintro ⟨hidle, launched, hlaunch⟩
    refine ⟨hidle, ?_⟩
    by_contra hinfinite
    rw [Bool.not_eq_true] at hinfinite
    have hheld := hcomplete.launch_of_not_isFinite hinfinite
    rw [hlaunch] at hheld
    cases hheld
  · rintro ⟨hidle, hfinite⟩
    exact ⟨hidle, _, hcomplete.launch_of_isFinite hfinite⟩

/-- As long as nothing is broken off, a bare tab belongs to a submission that is outstanding. -/
theorem Course.Sound.loading_next (h : c.Sound m client)
    (hbare : c.session.Bare → c.session.loading = true) {event : Event}
    (hevent : event ≠ .breakOff) (hnext : (c.next event).session.Bare) :
    (c.next event).session.loading = true := by
  rcases (bare_next c event).mp hnext with ⟨rfl, ⟨hidle, launched, hlaunch⟩, -⟩ | ⟨hb, hwaits⟩
  · simp only [Course.next, start_of_idle hidle, hlaunch]
    rfl
  · have hloading := hbare hb
    cases event with
    | operate operation => exact (after_frame c.session operation).loading.trans hloading
    | submit =>
      simp only [Course.next, start_of_loading hloading]
      exact hloading
    | complete outcome =>
      -- a session that is loading waits for a request
      have hwaiting := h.waiting
      rw [hloading, show c.waiting = none from hwaits] at hwaiting
      cases hwaiting
    | breakOff => exact absurd rfl hevent

theorem Course.Sound.loading_run (h : c.Sound m client)
    (hbare : c.session.Bare → c.session.loading = true) (hevents : .breakOff ∉ events) :
    (c.run events).session.Bare → (c.run events).session.loading = true := by
  induction events generalizing c with
  | nil => exact hbare
  | cons event events ih =>
    rw [List.mem_cons, not_or] at hevents
    exact ih (h.next event) (h.loading_next hbare (Ne.symm hevents.1)) hevents.2

/-- When the results tab is shown without a result. After any course of a new session it is so
exactly if a form that can be sent was submitted from the results tab by a session that was not
loading, and since then no outcome has arrived, no other tab was selected and no further submission
started. So a session that is not loading has a result on its results tab, unless a submission was
broken off. -/
theorem results_tab_bare_iff {slug : String} {board : Option (Graph.Board Unit)} {s₀ : Session}
    (h : Session.open slug client board = .ok s₀) (events : List Event) :
    let course := fun events => ({ session := s₀ } : Course).run events
    ((course events).session.Bare ↔
      ∃ before during, events = before ++ .submit :: during ∧
        (course before).session.loading = false ∧
        (Json.obj (course before).session.form).isFinite = true ∧
        (course before).session.activeTab = .results ∧
        ((course before).next .submit).Lingers during) ∧
    (.breakOff ∉ events → (course events).session.loading = false →
      (course events).session.activeTab = .results → (course events).session.result.isSome) := by
  intro course
  obtain ⟨m, -, hsound⟩ := Course.sound_of_open h
  -- a new session shows its input tab
  have hstart : ¬ s₀.Bare := by
    obtain ⟨m, -, rfl⟩ := open_eq_ok.mp h
    rintro ⟨htab, -⟩
    cases htab
  constructor
  · rw [bare_run_iff]
    constructor
    · rintro (⟨hbare, -⟩ | ⟨before, during, heq, hsends, htab, hlingers⟩)
      · exact absurd hbare hstart
      · obtain ⟨hidle, hfinite⟩ := (hsound.run before).sends_iff.mp hsends
        exact ⟨before, during, heq, hidle, hfinite, htab, hlingers⟩
    · rintro ⟨before, during, heq, hidle, hfinite, htab, hlingers⟩
      exact .inr ⟨before, during, heq, (hsound.run before).sends_iff.mpr ⟨hidle, hfinite⟩, htab,
        hlingers⟩
  · intro hevents hidle htab
    by_contra hnone
    rw [Option.not_isSome_iff_eq_none] at hnone
    have hloading := hsound.loading_run (fun hbare => absurd hbare hstart) hevents ⟨htab, hnone⟩
    rw [show (course events).session.loading = _ from hloading] at hidle
    cases hidle

/-- A second submission takes the result from the results tab. Until something comes back the tab is
shown in a state in which it could not be selected; selecting the input tab ends that. -/
theorem results_tab_bare_iff_resubmitted :
    let s₀ := opened .bisection Client.usual none
    let answer := Outcome.answered 200 ("\x7b\"raiz\":2.0\x7d".toList.map Char.toNat)
    let first := [Event.submit, .complete answer]
    let c := ({ session := s₀ } : Course).run first
    Session.open "biseccion" Client.usual none = .ok s₀ ∧ c.session.result.isSome = true ∧
      (c.next .submit).session.loading = true ∧ (c.next .submit).session.Bare ∧
      (c.next .submit).session.selectTab (.str "results")
        = (.ok false, (c.next .submit).session) ∧
      ¬ ((c.next .submit).next (.operate (.selectTab (.str "input")))).session.Bare := by
  intro s₀ answer first c
  have hopen : Session.open "biseccion" Client.usual none = .ok s₀ := rfl
  have hstate : c.session.loading = false ∧ (Json.obj c.session.form).isFinite = true ∧
      c.session.activeTab = .results ∧ c.session.result.isSome = true ∧
      (c.next .submit).session.loading = true := by
    decide +kernel
  obtain ⟨hidle, hfinite, htab, hresult, hloading⟩ := hstate
  have hshown := (results_tab_bare_iff hopen (first ++ [.submit])).1.mpr
    ⟨first, [], rfl, hidle, hfinite, htab, trivial⟩
  refine ⟨hopen, hresult, hloading, hshown, ?_, ?_⟩
  · -- the guard of the selection refuses what the submission has left behind
    have hnone : (c.next .submit).session.result = none := hshown.2
    simp [selectTab, hnone, Tab.ofName?, Tab.all, Tab.name]
  · rw [bare_next]
    simp [Course.Waits, Operation.leaves, Tab.ofName?, Tab.all, Tab.name]

end FormulaDesk.Session
