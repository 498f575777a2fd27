import Deferred.Proofs.Typing
import Deferred.Registration.Flow

/-!
# Erasure — effects that are built with types keep them

Whoever builds effects by the constructors and combinators with types cannot get the types wrong.
Said of code that does nothing else with effects, and whose functions are such code as well, this
is a theorem: every link, every pipeline, every resumed command and every run opens every box as
what it holds.

* `Chain`, `Code`, `Bodies` — pipelines, code that builds effects, and what is behind the names;
* `Bodies.meaning` — the effects behind the names, for calls that are nested up to some depth;
* `Code.opens`, `Bodies.meaning_sound` — code builds effects of its types, and so do the names;
* `Meaning.KeepsPaths` — what becomes of queues while effects are moved;
* `Bodies.boxes_open` — all of it.
-/

namespace Deferred

namespace Typed

variable {S : Signature}

/-! ## Code with types -/

/-- How a pipeline is put together: one step after the other, each taking what the one before it
gives. -/
inductive Chain (S : Signature) (a e : S.types.Ty) : S.types.Ty → Type where
  | empty : Chain S a e a
  | push {v w : S.types.Ty} (p : Chain S a e v) (f : S.Fn v w e) : Chain S a e w

def Chain.pipeline {a e v : S.types.Ty} : Chain S a e v → Pipeline S a v e
  | .empty => .empty
  | .push p f => p.pipeline.push (.call f)

/-- Code that has an effect of `v` and `e` at hand and ends with one of `w` and `f`.

* `done`, `fault` — end with the effect at hand, or with an error instead;
* `success`, `failure`, `deferred`, `tryDeferred`, `pipeline` — take a new effect to hand;
* `andThen`, `map`, `ensure`, `mapErr` — chain the effect at hand;
* `resume` — feed it a result, and go on with what comes of it, or after a refusal as before;
* `look` — go on as its label and its outcome say;
* `perform` — act on the world, and go on as that says. -/
inductive Code (S : Signature) :
    S.types.Ty → S.types.Ty → S.types.Ty → S.types.Ty → Type 1 where
  | done {v e : S.types.Ty} : Code S v e v e
  | fault {v e w f : S.types.Ty} (error : S.types.El f) : Code S v e w f
  | success {v e a b w f : S.types.Ty} (value : S.types.El a) (rest : Code S a b w f) :
      Code S v e w f
  | failure {v e a b w f : S.types.Ty} (error : S.types.El b) (rest : Code S a b w f) :
      Code S v e w f
  | deferred {v e a b w f r : S.types.Ty} (label : Label)
      (operation : StateM S.World (Except (S.types.El b) (S.types.El r))) (k : S.Cont r a b)
      (rest : Code S a b w f) : Code S v e w f
  | tryDeferred {v e a b w f r : S.types.Ty} (label : Label)
      (operation : StateM S.World (Except (S.types.El b) (S.types.El r))) (k : S.TryCont r a b)
      (rest : Code S a b w f) : Code S v e w f
  | pipeline {v e c a b w f : S.types.Ty} (p : Chain S c b a) (start : S.types.El c)
      (rest : Code S a b w f) : Code S v e w f
  | andThen {v e a w f : S.types.Ty} (g : S.Fn v a e) (rest : Code S a e w f) : Code S v e w f
  | map {v e a w f : S.types.Ty} (g : S.types.El v → StateM S.World (S.types.El a))
      (rest : Code S a e w f) : Code S v e w f
  | ensure {v e w f : S.types.Ty} (holds : S.types.El v → StateM S.World Bool)
      (error : StateM S.World (S.types.El e)) (rest : Code S v e w f) : Code S v e w f
  | mapErr {v e b w f : S.types.Ty} (g : S.types.El e → StateM S.World (S.types.El b))
      (rest : Code S v b w f) : Code S v e w f
  | resume {v e w f r : S.types.Ty} (result : S.types.El r) (rest : Code S v e w f)
      (refused : ResumeError → Code S v e w f) : Code S v e w f
  | look {v e w f : S.types.Ty}
      (next : Option Label → Option (Except (S.types.El e) (S.types.El v)) → Code S v e w f) :
      Code S v e w f
  | perform {v e w f : S.types.Ty} {α : Type} (act : StateM S.World α) (next : α → Code S v e w f) :
      Code S v e w f

/-- What code does with the effect at hand. -/
def Code.run (M : Meaning S) {v e w f : S.types.Ty} :
    Code S v e w f → Effect S v e → Act S (Except (S.types.El f) (Effect S w f))
  | .done, x => return .ok x
  | .fault error, _ => return .error error
  | .success value rest, _ => rest.run M (.success value)
  | .failure error rest, _ => rest.run M (.failure error)
  | .deferred label operation k rest, _ => rest.run M (.deferred label operation k)
  | .tryDeferred label operation k rest, _ => rest.run M (.tryDeferred label operation k)
  | .pipeline p start rest, _ => do rest.run M (← p.pipeline.run M start)
  | .andThen g rest, x => do rest.run M (← x.andThen M (.call g))
  | .map g rest, x => do rest.run M (← x.map M g)
  | .ensure holds error rest, x => do rest.run M (← x.ensure M holds error)
  | .mapErr g rest, x => do rest.run M (← x.mapErr g)
  | .resume result rest refused, x => do
      match ← x.resume M result with
      | .ok next => rest.run M next
      | .error reason => (refused reason).run M x
  | .look next, x => (next x.label? x.outcome?).run M x
  | .perform act next, x => do (next (← lift act)).run M x

/-- Code that ends with the outcome that a result stands for. -/
def Code.ofExcept {v e w f : S.types.Ty} : Except (S.types.El f) (S.types.El w) → Code S v e w f
  | .ok value => .success value .done
  | .error error => .fault error

/-- The code behind the names, on every value that a function may be called on.  It begins with a
success of that value at hand. -/
structure Bodies (S : Signature) where
  call : {a v e : S.types.Ty} → S.Fn a v e → S.types.El a → Code S a e v e
  resume : {r v e : S.types.Ty} → S.Cont r v e → S.types.El r → Code S r e v e
  tryResume : {r v e : S.types.Ty} → S.TryCont r v e → S.types.El r → Code S r e v e

/-- An effect; a fault of code that cannot fault is a failure. -/
def orFailure {v e : S.types.Ty} : Except (S.types.El e) (Effect S v e) → Effect S v e
  | .ok x => x
  | .error error => .failure error

/-- The effects behind the names when calls are nested up to a given depth; a call that is nested
deeper is answered by `deeper`.  Operations do not count: what comes after one starts again with
the full depth. -/
def Bodies.meaning (B : Bodies S) (deeper : Meaning S) : Nat → Meaning S
  | 0 => deeper
  | depth + 1 =>
      { call := fun f x => orFailure <$> (B.call f x).run (B.meaning deeper depth) (.success x)
        resume := fun k x => orFailure <$> (B.resume k x).run (B.meaning deeper depth) (.success x)
        tryResume := fun k x => (B.tryResume k x).run (B.meaning deeper depth) (.success x) }

/-! ## What code builds -/

theorem orFailure_fits {v e : S.types.Ty} {outcome : Except (S.types.El e) (Effect S v e)}
    (h : Fits? outcome) : (orFailure outcome).Fits := by
  cases outcome with
  | ok y =>
    exact h y rfl
  | error error =>
    exact .failure error

theorem Code.run_ofExcept {M : Meaning S} {a v e : S.types.Ty}
    (result : Except (S.types.El e) (S.types.El v)) (x : Effect S a e) :
    orFailure <$> (Code.ofExcept result).run M x = pure (Effect.ofExcept result) := by
  cases result <;> rfl

theorem Effect.ofExcept_fits {v e : S.types.Ty}
    (result : Except (S.types.El e) (S.types.El v)) : (Effect.ofExcept result).Fits := by
  cases result with
  | ok value =>
    exact .success value
  | error error =>
    exact .failure error

/-- The steps of a chain are a path of links. -/
theorem Chain.path {a e v : S.types.Ty} (p : Chain S a e v) :
    Path a e (p.pipeline.untyped.toList.map .onSuccess) v e := by
  induction p with
  | empty =>
    exact .nil
  | push p f ih =>
    show Path a e ((p.pipeline.untyped.push (Step.call f).untyped).toList.map .onSuccess) _ e
    rw [Deferred.Pipeline.toList_push, List.map_append]
    exact ih.append (.singleton (.onSuccess (.call f)))

section

variable {M : Meaning S} (hM : M.Sound)

include hM

/-- Code keeps the effect at hand to its types.  The induction is on the code: what it takes to
hand is made with its types, and what it does to it is done by functions with types. -/
theorem Code.opens {v e w f : S.types.Ty} (code : Code S v e w f) {x : Effect S v e}
    (hx : x.Fits) : Opens Fits? (code.run M x) := by
  induction code with
  | done =>
    refine .pure ?_
    rintro _ ⟨⟩
    exact hx
  | fault error =>
    exact .pure nofun
  | success value rest ih =>
    exact ih (.success value)
  | failure error rest ih =>
    exact ih (.failure error)
  | deferred label operation k rest ih =>
    exact ih (Effect.hasType_deferred label operation k)
  | tryDeferred label operation k rest ih =>
    exact ih (Effect.hasType_tryDeferred label operation k)
  | pipeline p start rest ih =>
    exact (Pipeline.run_opens hM p.path start).bind fun _ hy => ih hy
  | andThen g rest ih =>
    exact (Effect.andThen_opens hM hx (.call g)).bind fun _ hy => ih hy
  | map g rest ih =>
    exact (Effect.andThen_opens hM hx (.map g)).bind fun _ hy => ih hy
  | ensure holds error rest ih =>
    exact (Effect.andThen_opens hM hx (.ensure holds error)).bind fun _ hy => ih hy
  | mapErr g rest ih =>
    exact (Effect.mapErr_opens hx g).bind fun _ hy => ih hy
  | resume result rest refused ih ihrefused =>
    rw [Code.run]
    refine (Effect.resume_opens hM hx result).bind fun answer hanswer => ?_
    cases answer with
    | ok next =>
      exact ih (hanswer next rfl)
    | error reason =>
      exact ihrefused reason hx
  | look next ih =>
    exact ih _ _ hx
  | perform act next ih =>
    exact (Opens.lift act).bind fun a _ => ih a hx

end

namespace Bodies

variable (B : Bodies S) {deeper : Meaning S} (hdeeper : deeper.Sound)

include hdeeper

/-- Names that stand for code keep to their types, one level of calls after the other. -/
theorem meaning_sound (depth : Nat) : (B.meaning deeper depth).Sound := by
  induction depth with
  | zero =>
    exact hdeeper
  | succ depth ih =>
    constructor
    · intro a v e f x
      exact (Code.opens ih (B.call f x) (.success x)).map fun _ h => orFailure_fits h
    · intro r v e k x
      exact (Code.opens ih (B.resume k x) (.success x)).map fun _ h => orFailure_fits h
    · intro r v e k x
      exact Code.opens ih (B.tryResume k x) (.success x)

end Bodies

/-! ## Whatever is done with effects -/

/-- What moves an effect keeps its queue a path, and opens no box as another type than it holds: a
link that is put behind a queue, a queue that is put behind another one, an effect and an error
that pass through a queue, and a command whose result is supplied by hand or by its operation. -/
structure Meaning.KeepsPaths (M : Meaning S) : Prop where
  push : ∀ {v e w f : S.types.Ty} {c : Deferred.Command S.untyped} {l : Deferred.Link S.untyped},
    Command.HasType v e c → Link.HasType v e l w f → Command.HasType w f (c.push l)
  inherit : ∀ {v e w f : S.types.Ty} {c : Deferred.Command S.untyped}
    {rest : Deque (Deferred.Link S.untyped)},
    Command.HasType v e c → Path v e rest.toList w f → Command.HasType w f (c.inherit rest)
  pass : ∀ {v e w f : S.types.Ty} {x : Deferred.Effect S.untyped}
    {queue : Deque (Deferred.Link S.untyped)},
    Effect.HasType v e x → Path v e queue.toList w f →
      Opens (Effect.HasType w f) (x.pass M.untyped queue)
  passError : ∀ {v e w f : S.types.Ty} {queue : Deque (Deferred.Link S.untyped)},
    Path v e queue.toList w f → ∀ error : S.types.El e,
      Opens (fun b : Boxed S.types => b.type = f)
        (Deferred.passError (S := S.untyped) (Boxed.mk e error) queue)
  resume : ∀ {v e : S.types.Ty} {c : Deferred.Command S.untyped}, Command.HasType v e c →
    ∀ (r : S.types.Ty) (result : S.types.El r),
      Opens (fun answer => ∀ x, answer = .ok x → Effect.HasType v e x)
        (c.resume M.untyped r result)
  advance : ∀ {v e : S.types.Ty} {c : Deferred.Command S.untyped}, Command.HasType v e c →
    Opens (Advance.HasType v e) (c.advance M.untyped)

theorem Meaning.Sound.keepsPaths {M : Meaning S} (hM : M.Sound) : M.KeepsPaths := by
  constructor
  · intro v e w f c l hc hl
    exact hc.push hl
  · intro v e w f c rest hc hrest
    exact hc.inherit hrest
  · intro v e w f x queue hx hpath
    exact hx.pass hM hpath
  · intro v e w f queue hpath error
    refine (passError_opens hpath error).mono fun b hb => ?_
    rcases hb with ⟨error', rfl⟩
    rfl
  · intro v e c hc r result
    exact hc.resume hM r result
  · intro v e c hc
    exact hc.advance hM

/-- Erasing types is sound: no box is ever opened as another type than it holds.

Take any code with types behind the names, and calls that are nested up to any depth, where a call
that is nested deeper keeps to its types in some other way.

* Code that begins with an effect of its types opens every box as what it holds while it builds,
  also in the functions that it calls, and ends with an effect of its types or with an error.
* So does every run of a pipeline.
* The outcome of an effect of its types is opened as what it holds.  Such an effect stays one when a
  result of any type is supplied by hand, and opens every box as what it holds, also if its
  continuation faults.
* So does every run of it, whatever its limit.  The result is opened as what it holds as well, so
  none is lost.
* The queue of every command on the way is a path, from the types that its request leads to, to
  those of the effect. -/
theorem Bodies.boxes_open (B : Bodies S) {deeper : Meaning S} (hdeeper : deeper.Sound)
    (depth : Nat) :
    let M := B.meaning deeper depth
    (∀ {v e w f : S.types.Ty} (code : Code S v e w f) {x : Effect S v e}, x.Fits →
      Opens Fits? (code.run M x)) ∧
    (∀ {a v e : S.types.Ty} (p : Chain S a e v) (start : S.types.El a),
      Opens Effect.Fits (p.pipeline.run M start)) ∧
    (∀ {v e : S.types.Ty} {x : Effect S v e}, x.Fits →
      x.outcome?.map (boxResult v e) = x.untyped.outcome? ∧
      (∀ {r : S.types.Ty} (result : S.types.El r), Opens Fits? (x.resume M result)) ∧
      (∀ limit, Opens (fun _ => True) (x.runRecorded M limit) ∧
        boxFinished v e <$> x.runRecorded M limit =
          Interpreter.runRecorded ⟨M.untyped, fun _ => pure ()⟩ limit x.untyped)) ∧
    M.KeepsPaths := by
  have hM := B.meaning_sound hdeeper depth
  refine ⟨?_, ?_, ?_, hM.keepsPaths⟩
  · intro v e w f code x hx
    exact Code.opens hM code hx
  · intro a v e p start
    exact Pipeline.run_opens hM p.path start
  · intro v e x hx
    refine ⟨Effect.boxed_outcome? hx, ?_, ?_⟩
    · intro r result
      exact Effect.resume_opens hM hx result
    · intro limit
      exact Effect.runRecorded_opens hM hx limit

end Typed

/-! ## Registration -/

namespace Registration

/-- A command of the store as code. -/
def askStoreCode (wording : Wording) {a r v : Kind} (label : Label)
    (operation : StateM Store (Except StoreError (kinds.El r)))
    (k : (e : Kind) → ResumeName r v e) :
    Typed.Code signature a Kind.problem v Kind.problem :=
  match wording with
  | .detailed =>
      .deferred (S := signature) (b := Kind.storeError) label operation (k .storeError)
        (.mapErr (S := signature) (e := Kind.storeError) (b := Kind.problem) ofStoreError .done)
  | .plain =>
      .deferred (S := signature) (b := Kind.problem) label (givingProblems operation) (k .problem)
        .done

/-- The steps of the flow as code. -/
def stepCode (policy : Policy) : {a v e : Kind} → StepName a v e → kinds.El a →
    Typed.Code signature a e v e
  | _, _, _, .validate, (input : Applicant) =>
      .ofExcept (S := signature) (w := Kind.applicant) (f := Kind.problem) input.validate
  | _, _, _, .find, (input : Applicant) =>
      askStoreCode policy.wording (r := .foundUser) ⟨"find_user_by_email"⟩
        (Store.find input.email) (.beside input)
  | _, _, _, .requireNew, (checked : Applicant × Option User) =>
      .ofExcept (S := signature) (w := Kind.applicant) (f := Kind.problem) (requireNew checked)
  | _, _, _, .save, (input : Applicant) =>
      askStoreCode policy.wording (r := .user) ⟨"save_user"⟩ (Store.save policy input) .done

/-- The continuations of the flow as code. -/
def resumeCode : {r v e : Kind} → ResumeName r v e → kinds.El r → Typed.Code signature r e v e
  | _, _, _, .beside input e, (found : Option User) =>
      .success (S := signature) (a := Kind.checked) (b := e) (input, found) .done
  | _, _, _, .done _, (_ : User) => .done

/-- The flow as code. -/
def bodies (policy : Policy) : Typed.Bodies signature where
  call := stepCode policy
  resume := resumeCode
  tryResume := fun k _ => nomatch k

/-- The steps of the flow, in order. -/
def chain : Typed.Chain signature Kind.applicant Kind.problem Kind.user :=
  Typed.Chain.empty
    |>.push StepName.validate
    |>.push StepName.find
    |>.push StepName.requireNew
    |>.push StepName.save

theorem chain_pipeline : chain.pipeline = registration := rfl

section

variable {a r v : Kind} (wording : Wording) (label : Label)
  (operation : StateM Store (Except StoreError (kinds.El r))) (k : (e : Kind) → ResumeName r v e)

theorem run_askStoreCode (M : Typed.Meaning signature) (x : Typed.Effect signature a Kind.problem) :
    Typed.orFailure <$> (askStoreCode wording label operation k).run M x =
      askStore wording label operation k := by
  cases wording <;> rfl

/-- A command of the store is of the types of the flow in either wording. -/
theorem askStore_opens :
    Typed.Opens Typed.Effect.Fits (askStore wording label operation k) := by
  cases wording with
  | detailed =>
    exact Typed.Effect.mapErr_opens (Typed.Effect.hasType_deferred _ _ _) _
  | plain =>
    exact .pure (Typed.Effect.hasType_deferred _ _ _)

end

/-- The effects of the flow are what its code builds.  No step calls another one, so one level of
calls is enough. -/
theorem bodies_meaning (policy : Policy) (deeper : Typed.Meaning signature) :
    (bodies policy).meaning deeper 1 = meaning policy := by
  apply Typed.Meaning.ext
  · funext a v e f x
    cases (f : StepName a v e) with
    | validate =>
      exact Typed.Code.run_ofExcept _ _
    | find =>
      exact run_askStoreCode ..
    | requireNew =>
      exact Typed.Code.run_ofExcept _ _
    | save =>
      exact run_askStoreCode ..
  · funext r v e k x
    cases (k : ResumeName r v e) <;> rfl
  · funext r v e k x
    exact nomatch (k : Empty)

theorem meaning_sound (policy : Policy) : (meaning policy).Sound := by
  constructor
  · intro a v e f x
    cases (f : StepName a v e) with
    | validate =>
      exact .pure (Typed.Effect.ofExcept_fits _)
    | find =>
      exact askStore_opens _ _ _ _
    | requireNew =>
      exact .pure (Typed.Effect.ofExcept_fits _)
    | save =>
      exact askStore_opens _ _ _ _
  · intro r v e k x
    cases (k : ResumeName r v e) with
    | beside input e =>
      exact .pure (.success _)
    | done e =>
      exact .pure (.success _)
  · intro r v e k
    exact nomatch (k : Empty)

/-- A registration waits for its lookup, behind which errors of the store become problems and values
change their type twice.  Its run opens every box as what it holds. -/
theorem registration_boxes_open :
    let M := (bodies .detailed).meaning (meaning .detailed) 1
    let empty : Typed.Checked signature := { world := ({} : Store) }
    let begun := registration.run M ⟨"ada@example.org", "correct horse"⟩ empty
    begun.1.label? = some ⟨"find_user_by_email"⟩ ∧ begun.1.Fits ∧
      (begun.1.runRecorded M 2 begun.2).2.mismatches = [] := by
  have hopen := Typed.Bodies.boxes_open (bodies .detailed) (meaning_sound .detailed) 1
  intro M empty begun
  have hbegun := hopen.2.1 chain ⟨"ada@example.org", "correct horse"⟩ empty
  have hrun := ((hopen.2.2.1 hbegun.2).2.2 2).1 begun.2
  exact ⟨rfl, hbegun.2, hrun.1.trans hbegun.1⟩

end Registration

end Deferred
