import ComponentAssembly.Proofs.ImplicitCalls

/-!
# The keys in progress are those of the calls around

Guards keep the keys in progress in the state, and ask the state whether a key is in progress.  Here
calls are told the keys of the calls around them (`callAmid`): guards ask for these instead, and write
the state without reading it.  It comes to the same, from any state (`callWithin_eq_callAmid`):

    callWithin depth f s = callAmid depth s.inProgress f s

So the keys in progress are those of the guarded calls around that have not returned, however calls
between them end and whatever becomes of their errors.  Afterwards they are as before (`Balanced`), and
at rest there are none (`Reachable.calls_balanced`).
-/

namespace ComponentAssembly

open Assemble

/-! ## Calls amid keys -/

/-- The keys from the first occurrence of a key on, and the key again. -/
def chainAmid (outer : List Key) (key : Key) : List Key :=
  outer.drop (outer.idxOf key) ++ [key]

def Assemble.entering {α : Type} (outer : List Key) (key : Key) (step : Assemble α) : Assemble α :=
  ExceptT.mk fun s =>
    let (result, t) := step.run { s with inProgress := outer ++ [key] }
    (result, { t with inProgress := outer })

/-- Runs a factory amid the keys of the guarded calls around it, the outermost first.  What it asks for
is run amid these and the keys that the factory guards. -/
def Factory.runAmid (call : List Key → Factory → Assemble Instance) :
    Factory → List Key → Assemble Instance
  | .guarded key inner, outer =>
    if key ∈ outer then raise (.circularDependency (chainAmid outer key))
    else entering outer key (inner.runAmid call (outer ++ [key]))
  | .once cell inner, outer => keepIn cell (inner.runAmid call outer)
  | .memo store key inner, outer => keepBy store key (inner.runAmid call outer)
  | core, outer => core.run (Provider.of (call outer))

/-- Runs a factory amid the keys of the calls around it, with at most so many calls nested. -/
def callAmid : Nat → List Key → Factory → Assemble Instance
  | 0, _, _ => throw .exhausted
  | depth + 1, outer, f => f.runAmid (callAmid depth) outer

theorem cycleChain_of_mem {path : List Key} {key : Key} (h : key ∈ path) :
    cycleChain path key = some (chainAmid path key) := by
  cases hchain : cycleChain path key with
  | none => exact absurd h (cycleChain_eq_none_iff.mp hchain)
  | some chain =>
    obtain ⟨-, rfl⟩ := cycleChain_eq_some hchain
    unfold chainAmid List.idxOf
    simp [List.dropWhile_eq_drop_findIdx_not, bne]

@[simp]
theorem chainAmid_append {before after : List Key} {key : Key} (h : key ∉ before) :
    chainAmid (before ++ key :: after) key = key :: after ++ [key] := by
  unfold chainAmid
  rw [List.idxOf_append, if_neg h]
  simp

/-! ## Steps that do the same -/

section

variable {α β : Type} {s t : State}

/-- What follows a step that only adds to a state. -/
theorem Growing.bind_same {m : Assemble α} (hm : Growing m) {f g : α → Assemble β}
    (h : ∀ a t, s.Grows t → f a t = g a t) :
    (m >>= f : Assemble β) s = (m >>= g : Assemble β) s := by
  have hgrows := hm s
  cases hrun : m s with
  | mk r t =>
    rw [hrun] at hgrows
    simp only [run_bind, hrun]
    cases r with
    | ok a => exact h a t hgrows
    | error stop => rfl

theorem attempt_same {m m' : Assemble α} (h : m s = m' s) : attempt m s = attempt m' s :=
  stateBind_same h _

theorem keepBy_same {make make' : Assemble Instance} (h : make s = make' s) (store : Nat)
    (key : Key) : keepBy store key make s = keepBy store key make' s := by
  unfold keepBy
  rw [get_bind, get_bind]
  cases s.stored? store key with
  | some i => rfl
  | none => exact bind_same h _

/-- Two providers give the same answers in the states of a kind. -/
structure Provider.Same (I : State → Prop) (p q : Provider) : Prop where
  substitutor : ∀ s, I s → p.substitutor s = q.substitutor s
  supply : ∀ x s, I s → p.supply x s = q.supply x s
  ask : ∀ key s, I s → p.ask key s = q.ask key s
  draw : ∀ x type s, I s → p.draw (.dependency x) type s = q.draw (.dependency x) type s

/-- Programs do the same with providers that give the same answers. -/
theorem Program.same {r : Remit} {I : State → Prop} {p q : Provider} (hI : r.Keeps I)
    (hp : p.Keeps r I) (hsame : p.Same I q) {α : Type} [inst : Stoppable α] {Q : α → Prop}
    {m : Provider → StateM State α} (hm : Program r Q m) : ∀ s, I s → m p s = m q s := by
  induction hm with
  | pure _ => exact fun _ _ => rfl
  | @bind _ _ _ _ _ _ m f hm _ _ ih ihf =>
    intro s hs
    obtain ⟨hkeeps, hresult⟩ := Program.keeps hI hp hm s hs
    show f p (m p s).1 (m p s).2 = f q (m q s).1 (m q s).2
    rw [← ih s hs]
    exact ihf _ hresult _ hkeeps
  | after hstep _ ihf =>
    intro s hs
    obtain ⟨hkeeps, hresult⟩ := hstep.keeps hI s hs
    exact ihf _ hresult _ hkeeps
  | look _ _ ihf => exact fun s hs => ihf s (hI.reads s hs) s hs
  | substitutor => exact hsame.substitutor
  | supply _ _ => exact hsame.supply _
  | ask _ => exact hsame.ask _
  | draw _ type => exact hsame.draw _ type

end

/-! ## Answers amid keys -/

section

variable {call call' : Factory → Assemble Instance} {s t : State}

theorem currentSubstitutor_same (h : ∀ f, call f s = call' f s) :
    currentSubstitutor call s = currentSubstitutor call' s := by
  unfold currentSubstitutor
  rw [get_bind, get_bind]
  cases s.factory? Substitutor.key with
  | none => rfl
  | some f => exact bind_same (attempt_same (bind_same (h f) _)) _

theorem pull_same (h : ∀ f u, s.Grows u → call f u = call' f u) (supplier : Supplier) :
    pull call supplier s = pull call' supplier s := by
  rw [pull_eq, pull_eq]
  have hfactory : Growing (factoryOf supplier) := fun t => (t.factoryOf_discovers supplier).grows
  exact hfactory.bind_same fun f u hu => bind_same (h f u hu) _

/-- Where calls do the same, an injector gives the same answers. -/
theorem Provider.same_of (h : ∀ f t, s.Grows t → call f t = call' f t) :
    (Provider.of call).Same s.Grows (Provider.of call') where
  substitutor t ht := currentSubstitutor_same fun f => h f t ht
  supply p t ht := by
    have hfactory : Growing (dependencyFactory p) := fun u => (u.dependencyFactory_discovers p).1
    refine hfactory.bind_same fun found u hu => ?_
    cases found with
    | none => rfl
    | some f => exact bind_same (h f u (ht.trans hu)) _
  ask key t ht := by
    have hfactory : Growing (getFactory key) := fun u => (u.getFactory_discovers key).grows
    exact hfactory.bind_same fun f u hu => h f u (ht.trans hu)
  draw x type t ht := by
    have hnew : Growing (liftM (State.newSupplier (.dependency x) type) : Assemble Supplier) :=
      fun u => u.grows_newSupplier fun f hf => by cases hf
    refine hnew.bind_same fun supplier u hu => ?_
    exact pull_same (fun f v hv => h f v (ht.trans (hu.trans hv))) supplier

end

/-! ## Calls -/

/-- A step leaves the keys in progress as they were. -/
def Balanced {α : Type} (m : StateM State α) : Prop :=
  ∀ s : State, (m s).2.inProgress = s.inProgress

theorem Growing.balanced {α : Type} {m : StateM State α} (h : Growing m) : Balanced m :=
  fun s => (h s).inProgress

/-- A program that asks an injector does the same where the keys of the calls around are told. -/
theorem Program.amid {call : Factory → Assemble Instance}
    {amid : List Key → Factory → Assemble Instance} (hcall : ∀ f, Growing (call f))
    (hsame : ∀ f s, call f s = amid s.inProgress f s) {α : Type} [Stoppable α] {Q : α → Prop}
    {m : Provider → StateM State α} (hm : Program .free Q m) (s : State) :
    m (Provider.of call) s = m (Provider.of (amid s.inProgress)) s := by
  refine Program.same s.grows_keeps (Growing.provider_keeps hcall s) (Provider.same_of ?_) hm s
    (.refl s)
  intro f t ht
  rw [hsame f t, ht.inProgress]

theorem Factory.run_amid {call : Factory → Assemble Instance}
    {amid : List Key → Factory → Assemble Instance} (hcall : ∀ f, Growing (call f))
    (hsame : ∀ f s, call f s = amid s.inProgress f s) (f : Factory) (s : State) :
    f.run (Provider.of call) s = f.runAmid amid s.inProgress s := by
  have hcore : ∀ (f : Factory) (s : State), f.isCore →
      f.run (Provider.of call) s = f.run (Provider.of (amid s.inProgress)) s := fun f s hf =>
    Program.amid hcall hsame
      (Program.run_core hf (fun _ _ => trivial) (fun _ _ _ _ _ => trivial)) s
  induction f generalizing s with
  | guarded key inner ih =>
    unfold Factory.runAmid
    by_cases hkey : key ∈ s.inProgress
    · rw [if_pos hkey]
      exact withGuard_circular (cycleChain_of_mem hkey) _
    · rw [if_neg hkey]
      refine (withGuard_entered (cycleChain_eq_none_iff.mpr hkey) _).trans ?_
      -- What runs under the guard leaves the keys as they were, so that cutting them off restores them.
      have hbalanced := (Growing.run hcall inner).balanced
        { s with inProgress := s.inProgress ++ [key] }
      have hinner := ih { s with inProgress := s.inProgress ++ [key] }
      dsimp only
      rw [hbalanced, List.take_left' rfl, hinner]
      rfl
  | once cell inner ih => exact keepIn_same (ih { s with filling := s.filling ++ [cell] })
  | memo store key inner ih => exact keepBy_same (ih s) store key
  | constant i => exact hcore _ s rfl
  | recipe r rewrap => exact hcore _ s rfl
  | method key r => exact hcore _ s rfl
  | construct key c => exact hcore _ s rfl

/-- Guards may as well ask for the keys of the calls around as for the keys in progress. -/
theorem callWithin_eq_callAmid (depth : Nat) (f : Factory) (s : State) :
    callWithin depth f s = callAmid depth s.inProgress f s := by
  induction depth generalizing f s with
  | zero => rfl
  | succ depth ih => exact f.run_amid (Growing.callWithin depth) ih s

/-- A configuration asks for no keys in progress either. -/
theorem configure_eq_amid (n : Node Instance) (s : State) :
    configure n s =
      configureNode (Provider.of (callAmid (s.knownKeys.length + 2) s.inProgress)) n n.name s :=
  Program.amid (Growing.callWithin _) (callWithin_eq_callAmid _)
    (Program.configureNode n n.name trivial fun _ _ _ _ _ => trivial) s

/-- A guarded key that is in progress is refused, and nothing is run. -/
theorem callWithin_guarded_refused (depth : Nat) {key : Key} (inner : Factory) {s : State}
    {before after : List Key} (h : s.inProgress = before ++ key :: after) (hfirst : key ∉ before) :
    callWithin (depth + 1) (.guarded key inner) s =
      (.error (.error (.circularDependency (key :: after ++ [key]))), s) := by
  rw [← chainAmid_append hfirst, ← h]
  refine withGuard_circular (cycleChain_of_mem ?_) _
  rw [h]
  exact List.mem_append_right _ List.mem_cons_self

/-- A guarded key that is not in progress is so while its factory runs. -/
theorem callWithin_guarded_entered (depth : Nat) {key : Key} (inner : Factory) {s : State}
    (h : key ∉ s.inProgress) :
    callWithin (depth + 1) (.guarded key inner) s =
      entering s.inProgress key (inner.run (Provider.of (callWithin depth))) s := by
  refine (withGuard_entered (cycleChain_eq_none_iff.mpr h) _).trans ?_
  have hbalanced := (Growing.run (Growing.callWithin depth) inner).balanced
    { s with inProgress := s.inProgress ++ [key] }
  dsimp only
  rw [hbalanced, List.take_left' rfl]
  rfl

/-! ## What is asked for -/

namespace Balanced

variable {depth : Nat}

theorem substitutor : Balanced (Provider.of (callWithin depth)).substitutor :=
  (Growing.currentSubstitutor (Growing.callWithin depth)).balanced

theorem supply (p : InjectionPoint) : Balanced ((Provider.of (callWithin depth)).supply p) :=
  (Growing.supply (Growing.callWithin depth) p).balanced

theorem ask (key : Key) : Balanced ((Provider.of (callWithin depth)).ask key) :=
  (Growing.andThen (fun s => (s.getFactory_discovers key).grows) (Growing.callWithin depth)).balanced

theorem pull (supplier : Supplier) : Balanced (Assemble.pull (callWithin depth) supplier) :=
  (Growing.pull (Growing.callWithin depth) supplier).balanced

theorem configureNode (n : Node Instance) (path : String) :
    Balanced (Assemble.configureNode (Provider.of (callWithin depth)) n path) :=
  (Growing.program (Growing.callWithin depth)
    (Program.configureNode n path trivial fun _ _ _ _ _ => trivial)).balanced

/-- To get a type is to register it first. -/
theorem getType (type : TypePath) : Balanced (Assemble.getType type) := by
  have hget : Growing (getInstanceAs (.of type) type) :=
    .andThen (.andThen (fun s => (s.getFactory_discovers _).grows) Growing.call)
      fun i => Growing.ofExcept _
  exact fun s => hget.balanced { s with
    tables.constructions := assign type type s.tables.constructions }

end Balanced

/-- The static check looks at what is bound on request alone. -/
theorem State.Evolves.checkAcyclic {s t : State} (h : s.Evolves t) (key : Key) (c : Construction) :
    t.checkAcyclic key c = s.checkAcyclic key c :=
  checkAcyclic_congr h.declarations h.checkedMaker key c

/-- **Calls leave no key in progress.**  The keys in progress are those of the guarded calls around that
have not returned: guards may as well be told these.  Whatever is called, asked for or configured, and
however it ends, leaves the keys in progress as they were.  A guarded key that is in progress is refused
with the keys from there on, and nothing is run; any other is entered.  At rest no key is in progress,
so that requests start from none, whether earlier ones failed or not; nor do these change what the static
check says.  What earlier requests change for later ones is what keys are bound to and what is kept. -/
theorem Reachable.calls_balanced {s : State} {held : List Factory} (h : Reachable s held) :
    (∀ depth f, Balanced (callWithin depth f) ∧
        ∀ t, callWithin depth f t = callAmid depth t.inProgress f t) ∧
      (∀ depth, Balanced (Provider.of (callWithin depth)).substitutor ∧
        (∀ p, Balanced ((Provider.of (callWithin depth)).supply p)) ∧
        (∀ key, Balanced ((Provider.of (callWithin depth)).ask key)) ∧
        (∀ supplier, Balanced (pull (callWithin depth) supplier)) ∧
        ∀ n path, Balanced (configureNode (Provider.of (callWithin depth)) n path)) ∧
      (∀ r : Request, r.isQuery → Balanced r.run) ∧
      (∀ type, Balanced (getType type)) ∧
      (∀ depth key inner t before after, t.inProgress = before ++ key :: after → key ∉ before →
        callWithin (depth + 1) (.guarded key inner) t =
          (.error (.error (.circularDependency (key :: after ++ [key]))), t)) ∧
      (∀ depth key inner t, key ∉ t.inProgress →
        callWithin (depth + 1) (.guarded key inner) t =
          entering t.inProgress key (inner.run (Provider.of (callWithin depth))) t) ∧
      s.inProgress = [] ∧
      (∀ f : Factory, f.call s = callAmid (s.depthFor f) [] f s) ∧
      (∀ n, configure n s =
        configureNode (Provider.of (callAmid (s.knownKeys.length + 2) [])) n n.name s) ∧
      ∀ r : Request, r.isQuery → ∀ key c,
        (r.run s).2.checkAcyclic key c = s.checkAcyclic key c := by
  have hidle := h.settled.idle
  refine ⟨?_, ?_, ?_, .getType, ?_, ?_, hidle, ?_, ?_, ?_⟩
  · exact fun depth f => ⟨(Growing.callWithin depth f).balanced, callWithin_eq_callAmid depth f⟩
  · exact fun depth => ⟨.substitutor, .supply, .ask, .pull, .configureNode⟩
  · exact fun r hr => (Request.growing_query hr).balanced
  · exact fun depth key inner t before after => callWithin_guarded_refused depth inner
  · exact fun depth key inner t => callWithin_guarded_entered depth inner
  · intro f
    rw [← hidle]
    exact callWithin_eq_callAmid _ f s
  · intro n
    rw [configure_eq_amid, hidle]
  · exact fun r hr key c => ((Request.growing_query hr) s).checkAcyclic key c

/-- Two keys that ask for each other are refused with the keys from the first on; after that, all calls
start from no key again. -/
theorem calls_balanced_entangled :
    let left := Key.of ⟨"Left"⟩
    let failed := (Request.getInstance left).run .entangled
    failed.1 = .object (.error (.error (.circularDependency [left, .of ⟨"Right"⟩, left]))) ∧
      failed.2.inProgress = [] ∧
      ∀ f : Factory, f.call failed.2 = callAmid (failed.2.depthFor f) [] f failed.2 := by
  intro left failed
  have hentangled : Reachable .entangled [] :=
    ((Reachable.initial [] {} []).step (.bindAsking ⟨"Left"⟩ ⟨"Right"⟩) (.inr rfl)).step
      (.bindAsking ⟨"Right"⟩ ⟨"Left"⟩) (.inr rfl)
  have hfailed : Reachable failed.2 [] := hentangled.step (.getInstance left) trivial
  obtain ⟨-, -, -, -, -, -, hidle, hcalls, -⟩ := hfailed.calls_balanced
  exact ⟨by rfl, hidle, hcalls⟩

end ComponentAssembly
