import Scaffold.Install.Attended
import Scaffold.Proofs.Execution.Scoping

/-!
# Installations under a console

`Attended.Does` relates a part of an installation to the work that it does on a session when every line is shown: it
ends as the work does, or a line of the work is refused and that ends it.  Parts that are done one
after the other keep this form, and so does an installation as a whole (`does_run`).
-/

namespace Scaffold

namespace Console

variable {console : Console} {workspace after : Workspace} {lines told : List Shown} {message : String}

/-- A console refuses one of some lines. -/
def Refuses (console : Console) (told : List Shown) (message : String) : Prop :=
  ∃ line ∈ told, console line = .error message

/-- What is refused of some lines is refused of more. -/
theorem Refuses.of_prefix {more : List Shown} (refuses : console.Refuses told message) (begins : told <+: more) :
    console.Refuses more message := by
  obtain ⟨line, member, refused⟩ := refuses
  exact ⟨line, begins.subset member, refused⟩

/-- Nothing is refused of lines that are shown. -/
theorem Shows.not_refuses (shows : console.Shows told) : ¬console.Refuses told message := by
  rintro ⟨line, member, refused⟩
  rw [shows line member] at refused
  cases refused

/-- Lines are presented up to the first that is refused. -/
theorem present_cases (console : Console) (workspace : Workspace) (lines : List Shown) :
    console.Shows lines ∧ console.present workspace lines = (.ok (), workspace.tell lines)
      ∨ ∃ message shown, console.Refuses lines message
        ∧ console.present workspace lines = (.error message, workspace.tell shown) := by
  induction lines generalizing workspace with
  | nil => exact .inl ⟨List.forall_mem_nil _, by simp [present, Workspace.tell]⟩
  | cons line rest inductionHypothesis =>
      have together : ∀ others, (workspace.tell [line]).tell others = workspace.tell (line :: others) := by
        simp [Workspace.tell]
      rw [present]
      cases answer : console line with
      | error message =>
          exact .inr ⟨message, [], ⟨line, List.mem_cons_self, answer⟩, by simp [Workspace.tell]⟩
      | ok =>
          rcases inductionHypothesis (workspace.tell [line]) with
            ⟨shows, whole⟩ | ⟨message, shown, ⟨other, member, refused⟩, ended⟩
          · exact .inl ⟨List.forall_mem_cons.mpr ⟨answer, shows⟩, whole.trans (by rw [together])⟩
          · exact .inr ⟨message, line :: shown, ⟨other, List.mem_cons_of_mem _ member, refused⟩,
              ended.trans (by rw [together])⟩

end Console

/-- Lines that are shown one after the other are shown together. -/
theorem Session.tell_tell (session : Session) (first second : List Shown) :
    (session.tell first).tell second = session.tell (first ++ second) := by
  simp [tell, Workspace.tell]

namespace Attended

/-- Work on a session, which a fault of the state may end. -/
abbrev Work (Answer : Type) := Session → Except StateFault Answer × Session

variable {Answer Other : Type} {console : Console} {part : Attended Answer} {next : Answer → Attended Other}
  {work : Work Answer} {session : Session}

/-- The end of a part whose lines are shown. -/
def ended (outcome : Except StateFault Answer × Session) : EStateM.Result InstallFault Session Answer :=
  match outcome with
  | (.ok answer, after) => .ok answer after
  | (.error fault, after) => .error (.state fault) after

/-- The session afterwards, whether the part answered or was broken off. -/
def left : EStateM.Result InstallFault Session Answer → Session
  | .ok _ after => after
  | .error _ after => after

/-- What a part does in a session: some work, unless a line of this work is refused.  The session goes on. -/
structure DoesIn (console : Console) (part : Attended Answer) (work : Work Answer) (session : Session) : Prop where
  continues : session.workspace.Continues (work session).2.workspace
  ends : part session = ended (work session)
    ∨ ∃ message after, part session = .error (.console message) after
      ∧ console.Refuses (work session).2.workspace.shown message

/-- What a part does in every session whose templates keep contexts. -/
def Does (console : Console) (part : Attended Answer) (work : Work Answer) : Prop :=
  ∀ session, session.workspace.renderings.KeepContext → DoesIn console part work session

/-- A part does some work that no fault ends. -/
def Always (console : Console) (part : Attended Answer) (sure : Session → Answer × Session) : Prop :=
  Does console part fun session => (.ok (sure session).1, (sure session).2)

/-- Work that goes on with every answer, and ends at a fault. -/
def Work.andThen (work : Work Answer) (onward : Answer → Work Other) : Work Other := fun session =>
  match work session with
  | (.ok answer, after) => onward answer after
  | (.error fault, after) => (.error fault, after)

/-- A part that a console does not end ends as its work does. -/
theorem DoesIn.of_shows (does : DoesIn console part work session)
    (shows : console.Shows (work session).2.workspace.shown) : part session = ended (work session) := by
  rcases does.ends with same | ⟨message, after, _, refuses⟩
  · exact same
  · exact absurd refuses shows.not_refuses

/-- A part that answers has done its work. -/
theorem DoesIn.of_ok {answer : Answer} {after : Session} (does : DoesIn console part work session)
    (answered : part session = .ok answer after) : work session = (.ok answer, after) := by
  rcases does.ends with same | ⟨message, _, refused, _⟩
  · rw [answered] at same
    cases worked : work session with
    | mk outcome left =>
        rw [worked] at same
        cases outcome with
        | ok given =>
            obtain ⟨rfl, rfl⟩ := EStateM.Result.ok.inj same
            rfl
        | error fault => cases same
  · rw [answered] at refused
    cases refused

/-- Only what the work does in the session counts. -/
theorem DoesIn.of_eq {other : Work Answer} (does : DoesIn console part work session)
    (same : other session = work session) : DoesIn console part other session :=
  ⟨same ▸ does.continues, same ▸ does.ends⟩

/-- An answer is the end of the part. -/
theorem ended_of_ok {outcome : Except StateFault Answer × Session} {answer : Answer}
    (answered : outcome.1 = .ok answer) : ended outcome = .ok answer outcome.2 := by
  obtain ⟨given, after⟩ := outcome
  cases answered
  rfl

/-- A part whose lines are shown leaves what its work leaves. -/
theorem left_ended (outcome : Except StateFault Answer × Session) : left (ended outcome) = outcome.2 := by
  obtain ⟨answer | fault, after⟩ := outcome <;> rfl

/-- Work is not ended by the console. -/
theorem ended_ne_console {outcome : Except StateFault Answer × Session} {message : String} {after : Session} :
    ended outcome ≠ .error (.console message) after := by
  obtain ⟨answer | fault, left⟩ := outcome <;> rintro ⟨⟩

/-- A part without effect. -/
theorem always_pure (answer : Answer) : Always console (pure answer) fun session => (answer, session) :=
  fun _ _ => ⟨.refl _, .inl rfl⟩

/-- What may be a fault of the state is one. -/
theorem does_ofState (answer : Except StateFault Answer) :
    Does console (ofState answer) fun session => (answer, session) := by
  intro session _
  refine ⟨.refl _, .inl ?_⟩
  cases answer <;> rfl

/-- A part that reads the session does what it does in each. -/
theorem does_get {inside : Session → Attended Answer}
    (does : ∀ session, session.workspace.renderings.KeepContext →
      DoesIn console (inside session) work session) : Does console (get >>= inside) work :=
  fun session keeps => ⟨(does session keeps).continues, (does session keeps).ends⟩

/-- Lines are shown, or one of them is refused. -/
theorem tell_cases (console : Console) (lines : List Shown) (session : Session) :
    console.Shows lines ∧ tell console lines session = .ok () (session.tell lines)
      ∨ ∃ message shown, console.Refuses lines message
        ∧ tell console lines session = .error (.console message) (session.tell shown) := by
  rcases console.present_cases session.workspace lines with ⟨shows, whole⟩ | ⟨message, shown, refuses, ended⟩
  · exact .inl ⟨shows, by rw [tell, whole]; rfl⟩
  · exact .inr ⟨message, shown, refuses, by rw [tell, ended]; rfl⟩

/-- Lines are told. -/
theorem always_tell (lines : List Shown) :
    Always console (tell console lines) fun session => ((), session.tell lines) := by
  intro session _
  refine ⟨session.workspace.continues_tell lines, ?_⟩
  rcases tell_cases console lines session with ⟨_, whole⟩ | ⟨message, shown, ⟨line, member, refused⟩, ended⟩
  · exact .inl whole
  · exact .inr ⟨message, session.tell shown, ended, line, List.mem_append_right _ member, refused⟩

/-- Parts that are done one after the other do their work one after the other. -/
theorem Does.bind {onward : Answer → Work Other} (first : Does console part work)
    (second : ∀ answer, Does console (next answer) (onward answer)) :
    Does console (part >>= next) (work.andThen onward) := by
  intro session keeps
  obtain ⟨continues, ends⟩ := first session keeps
  cases worked : work session with
  | mk outcome between =>
      rw [worked] at continues ends
      cases outcome with
      | error fault =>
          refine ⟨by simp only [Work.andThen, worked]; exact continues, ?_⟩
          simp only [Work.andThen, worked]
          rcases ends with same | ⟨message, after, refused, refuses⟩
          · exact .inl (by simp only [Bind.bind, EStateM.bind, same]; rfl)
          · exact .inr ⟨message, after, by simp only [Bind.bind, EStateM.bind, refused], refuses⟩
      | ok answer =>
          obtain ⟨further, endsNext⟩ := second answer between (keeps.of_leaves continues.left)
          refine ⟨by simp only [Work.andThen, worked]; exact continues.trans further, ?_⟩
          simp only [Work.andThen, worked]
          rcases ends with same | ⟨message, after, refused, refuses⟩
          · simp only [Bind.bind, EStateM.bind, same]
            exact endsNext
          · exact .inr ⟨message, after, by simp only [Bind.bind, EStateM.bind, refused],
              refuses.of_prefix further.shown⟩

/-- A part that no fault ends is done, and then another one. -/
theorem Always.goOn {sure : Session → Answer × Session} {onward : Answer → Work Other}
    (first : Always console part sure) (second : ∀ answer, Does console (next answer) (onward answer)) :
    Does console (part >>= next) fun session => onward (sure session).1 (sure session).2 :=
  Does.bind first second

/-- Parts that no fault ends are done one after the other. -/
theorem Always.bind {sure : Session → Answer × Session} {others : Answer → Session → Other × Session}
    (first : Always console part sure) (second : ∀ answer, Always console (next answer) (others answer)) :
    Always console (part >>= next) fun session => others (sure session).1 (sure session).2 :=
  Does.bind first second

/-! ## The parts of an installation -/

variable {config : Config} {registry : Registry} {now : String} {requested : List String}
  {values : List (String × Entries)} {report : InstallReport}

/-- A blueprint is run. -/
theorem always_execute (options : RunOptions) (actions : List Action) :
    Always console (execute options actions) fun session =>
      ((Execution.run options session.context actions session.workspace).1,
        ⟨session.context, (Execution.run options session.context actions session.workspace).2⟩) := by
  intro session keeps
  refine ⟨Execution.continues_run options session.context actions session.workspace, .inl ?_⟩
  have same := (Step.always_run options actions session.context session.workspace keeps).1
  simp only [execute, same]
  rfl

/-- The values of a module are entered. -/
theorem always_enter (descriptor : Module) (supplied : Entries) :
    Always console (modify fun session => { session with context := session.context.enter descriptor supplied })
      fun session => ((), { session with context := session.context.enter descriptor supplied }) :=
  fun _ _ => ⟨.refl _, .inl rfl⟩

/-- The blueprint of a module is run with values. -/
theorem always_runModule (config : Config) (descriptor : Module) (supplied : Entries) :
    Always console (runModule console config descriptor supplied)
      (Install.runModule config descriptor supplied) :=
  (always_tell _).bind fun _ => (always_enter descriptor supplied).bind fun _ =>
    always_execute ⟨config.skipInstall, config.verbose⟩ descriptor.blueprint

/-- A module is installed, unless something stands against it. -/
theorem always_installModule (config : Config) (values : List (String × Entries)) (done : ModuleOutcomes)
    (descriptor : Module) :
    Always console (installModule console config values done descriptor)
      (Install.installModule config values done descriptor) := by
  unfold installModule
  dsimp only
  simp only [funext fun session => Install.installModule.eq_def config values done descriptor session]
  generalize (values.lookup descriptor.id).getD [] = supplied
  cases Install.blockers done descriptor with
  | cons first others => exact always_pure _
  | nil =>
      cases descriptor.missingRequired supplied with
      | cons first others => exact always_pure _
      | nil =>
          exact (always_runModule config descriptor supplied).bind fun report =>
            always_pure (ModuleOutcome.ran report)

/-- Modules are installed in order. -/
theorem always_installEach (config : Config) (values : List (String × Entries)) (done : ModuleOutcomes)
    (modules : List Module) :
    Always console (installEach console config values done modules) fun session =>
      Install.installEach config values done session modules := by
  induction modules generalizing done with
  | nil => exact always_pure done
  | cons descriptor rest inductionHypothesis =>
      have others (outcome : ModuleOutcome) : Always console
          (if outcome.isFailed && !config.continueOnFailure then
            return done ++ [(descriptor.id, outcome)] ++ rest.map fun unseen => (unseen.id, .unreached)
          else installEach console config values (done ++ [(descriptor.id, outcome)]) rest)
          fun session =>
            if outcome.isFailed && !config.continueOnFailure then
              (done ++ [(descriptor.id, outcome)] ++ rest.map fun unseen => (unseen.id, .unreached), session)
            else Install.installEach config values (done ++ [(descriptor.id, outcome)]) session rest := by
        split
        · exact always_pure _
        · exact inductionHypothesis _
      exact (always_installModule config values done descriptor).bind fun outcome =>
        (always_tell (Install.notes descriptor.id outcome)).bind fun _ => others outcome

/-- A state is saved. -/
theorem does_save (config : Config) (state : InstallState) :
    Does console (save config state) fun session =>
      ((state.save session.workspace.tree config.statePath).1,
        { session with workspace :=
          { session.workspace with tree := (state.save session.workspace.tree config.statePath).2 } }) := by
  intro session _
  refine ⟨⟨List.prefix_refl _, .refl _⟩, .inl ?_⟩
  simp only [save]
  cases (state.save session.workspace.tree config.statePath).1 <;> rfl

/-- An installation is remembered. -/
theorem does_remember (config : Config) (now : String) (registry : Registry) (report : InstallReport) :
    Does console (remember console config now registry report)
      (Install.remember config now registry report) := by
  refine does_get fun session keeps => ?_
  let loaded := (InstallState.load session.workspace.tree config.statePath).1
  let shown := (InstallState.load session.workspace.tree config.statePath).2
  have made : Does console
      (ofState (loaded.bind fun state => state.after now registry session.context report)) _ := does_ofState _
  have told : Always console (tell console shown) _ := always_tell shown
  refine (told.goOn (fun _ => made.bind fun next => does_save config next) session keeps).of_eq ?_
  simp only [Install.remember, Work.andThen]
  cases loaded.bind fun state => state.after now registry session.context report <;> rfl

/-- An installation does what it does without a console. -/
theorem does_run (config : Config) (registry : Registry) (now : String) (requested : List String)
    (values : List (String × Entries)) :
    Does console (run console config registry now requested values)
      (Install.run config registry now requested values) := by
  intro session keeps
  have told : Always console
      (tell console (Shown.sectionHeading "Resolving modules" ++ (registry.resolve requested).shown)) _ :=
    always_tell _
  unfold run
  dsimp only
  cases ok : (registry.resolve requested).isOk with
  | false =>
      refine (told.goOn (fun _ => (always_tell _).goOn fun _ => always_pure _) session keeps).of_eq ?_
      simp only [Install.run, ok, Bool.false_eq_true, if_false]
  | true =>
      have each : Always console _ _ := always_installEach config values []
        ((registry.resolve requested).order.filterMap registry.get?)
      refine (told.goOn (fun _ => each.goOn fun outcomes =>
        (does_remember config now registry ⟨registry.resolve requested, outcomes⟩).bind fun _ =>
          (always_tell _).goOn fun _ => always_pure _) session keeps).of_eq ?_
      simp only [Install.run, ok, if_true, Work.andThen]
      split <;> simp only [*]

/-- A session goes on with an installation. -/
theorem continues_run {session : Session} (keeps : session.workspace.renderings.KeepContext) :
    session.workspace.Continues (Install.run config registry now requested values session).2.workspace := by
  have done : Does (fun _ => .ok ()) _ _ := does_run config registry now requested values
  exact (done session keeps).continues

/-- A request that is not resolved changes nothing but what was shown, whatever the console refuses. -/
theorem run_of_unresolved (console : Console) (config : Config) (now : String) (values : List (String × Entries))
    (session : Session) (unresolved : (registry.resolve requested).isOk = false) :
    ∃ shown, run console config registry now requested values session
        = .ok ⟨registry.resolve requested, []⟩ (session.tell shown)
      ∨ ∃ message, run console config registry now requested values session
        = .error (.console message) (session.tell shown) := by
  unfold run
  simp only [unresolved, Bool.false_eq_true, if_false, Bind.bind, EStateM.bind]
  rcases tell_cases console (Shown.sectionHeading "Resolving modules" ++ (registry.resolve requested).shown) session
    with ⟨_, first⟩ | ⟨message, shown, _, refused⟩
  · rw [first]
    dsimp only
    rcases tell_cases console [.error "Installation aborted: resolve the problems above and try again."]
      (session.tell (Shown.sectionHeading "Resolving modules" ++ (registry.resolve requested).shown))
      with ⟨_, second⟩ | ⟨message, shown, _, refused⟩
    · rw [second]
      exact ⟨_, .inl (by rw [Session.tell_tell]; rfl)⟩
    · rw [refused]
      exact ⟨_, .inr ⟨message, by rw [Session.tell_tell]⟩⟩
  · rw [refused]
    exact ⟨shown, .inr ⟨message, rfl⟩⟩

end Attended

end Scaffold
