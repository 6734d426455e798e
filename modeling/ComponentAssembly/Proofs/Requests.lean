import ComponentAssembly.Proofs.Calls

/-!
# What an injector is asked for, and the states that this leads to

A `Request` is a call from outside.  A state is `Reachable` if a sequence of requests leads to it from
an initial one; the factories that the requests were answered with are held on to, and may be called
or bound again.  A state is `Settled` if nothing is in progress and it is wired as it should be;
registrations keep it so.
-/

namespace ComponentAssembly

open Assemble Stoppable

/-- What an injector is asked for from outside. -/
inductive Request where
  | registerConstruction (type maker : TypePath)
  | registerScope (marker : TypePath) (name : ScopeName)
  | registerBinding (key : Key) (factory : Factory) (source : String)
  | installModule (m : Module)
  | getFactory (key : Key)
  | getInstance (key : Key)
  | call (factory : Factory)
  | getSupplier (key : Key) (type : TypePath)
  | pull (supplier : Supplier)
  | configure (n : Node Instance)
  | release
  | set (properties : PropertySource) (environment : Texts) (reportUnmatched : Bool)
  | readJournal (read : StateM Journal Unit)

/-- What a request is answered with. -/
inductive Reply where
  | done (r : Except Stop Unit)
  | factory (r : Except Stop Factory)
  | object (r : Except Stop Instance)
  | supplier (r : Except Stop Supplier)
  | configured (r : Except Stop (Option Instance)) (n : Node Instance)

instance : Stoppable Reply where
  stop?
    | .done r => stop? r
    | .factory r => stop? r
    | .object r => stop? r
    | .supplier r => stop? r
    | .configured r _ => stop? r

def Reply.factories : Reply → List Factory
  | .factory (.ok f) => [f]
  | _ => []

namespace Request

def run : Request → StateM State Reply
  | registerConstruction type maker => .done <$> (Assemble.registerConstruction type maker).run
  | registerScope marker name => .done <$> (do Assemble.registerScope marker (← newScope name)).run
  | registerBinding key f source => .done <$> (Assemble.registerBinding key f source).run
  | installModule m => .done <$> (Assemble.installModule m).run
  | getFactory key => .factory <$> (Assemble.getFactory key).run
  | getInstance key => .object <$> (Assemble.getInstance key).run
  | call f => .object <$> f.call.run
  | getSupplier key type => .supplier <$> (Assemble.getSupplier key type).run
  | pull supplier => .object <$> (pullNow supplier).run
  | configure n => (fun r => .configured r.1 r.2) <$> Assemble.configure n
  | release => .done <$> Assemble.release.run
  | set properties environment reportUnmatched => do
    modify fun s => { s with properties, environment, reportUnmatched }
    return .done (.ok ())
  | readJournal read => do
    State.onJournal read
    return .done (.ok ())

@[simp]
theorem run_registerBinding (key : Key) (f : Factory) (source : String) (s : State) :
    run (registerBinding key f source) s =
      let (r, t) := insertBinding { key, factory := .guarded key f, origin := .explicit source } s
      (.done r, t) := rfl

@[simp]
theorem run_installModule (m : Module) (s : State) :
    run (installModule m) s =
      let (r, t) := Assemble.installModule m s
      (.done r, t) := rfl

@[simp]
theorem run_getFactory (key : Key) (s : State) :
    run (getFactory key) s =
      let (r, t) := Assemble.getFactory key s
      (.factory r, t) := rfl

/-- Whether a request names only factories that are at hand: those held, and hand-written ones.  A
hand-written factory gives an instance, or is what a `Recipe` can express; the layers that scopes put
around factories, `once` and `memo`, are not written by hand. -/
def Allowed (held : List Factory) : Request → Prop
  | registerBinding _ f _ => f ∈ held ∨ f.isCore
  | call f => f ∈ held
  | _ => True

end Request

/-- The states that requests lead to, with the factories that were handed out. -/
inductive Reachable : State → List Factory → Prop
  | initial (declarations : List (TypePath × Construction)) (properties : PropertySource)
      (environment : Texts) : Reachable (.initial declarations properties environment) []
  | step {s : State} {held : List Factory} (h : Reachable s held) (r : Request)
      (hr : r.Allowed held) : Reachable (r.run s).2 ((r.run s).1.factories ++ held)

/-! ## Settled states -/

/-- Nothing is in progress, and a state is wired as it should be, as are some factories. -/
structure State.Settled (s : State) (held : List Factory) : Prop extends s.Wired where
  idle : s.inProgress = []
  unfilled : s.filling = []
  held_tidy : ∀ f ∈ held, f.Tidy s.owner? none

namespace State

variable {U : List Key} {s t : State} {held : List Factory}

theorem Settled.sound (h : s.Settled held) (hU : s.knownKeys ⊆ U) : s.Sound U where
  toWired := h.toWired
  distinct := by rw [h.idle]; exact List.nodup_nil
  filling := by rw [h.unfilled]; intro cell hcell; cases hcell
  known := hU
  running := by rw [h.idle]; exact List.nil_subset _

/-- Running factories from a settled state leads to one. -/
theorem Settled.leads (h : s.Settled held) (ht : s.Leads U t) : t.Settled held where
  toWired := ht.sound.toWired
  idle := ht.evolves.inProgress.trans h.idle
  unfilled := ht.evolves.filling.trans h.unfilled
  held_tidy f hf := (h.held_tidy f hf).mono ht.evolves.owners

theorem Settled.hold (h : s.Settled held) {f : Factory} (hf : f.Tidy s.owner? none) :
    s.Settled (f :: held) where
  toWired := h.toWired
  idle := h.idle
  unfilled := h.unfilled
  held_tidy g hg := by
    rcases List.mem_cons.mp hg with rfl | hg
    · exact hf
    · exact h.held_tidy g hg

theorem Settled.sublist (h : s.Settled held) {fewer : List Factory} (hf : fewer ⊆ held) :
    s.Settled fewer :=
  ⟨h.toWired, h.idle, h.unfilled, fun f hmem => h.held_tidy f (hf hmem)⟩

theorem settled_initial (declarations : List (TypePath × Construction))
    (properties : PropertySource) (environment : Texts) :
    (State.initial declarations properties environment).Settled [] := by
  constructor
  · constructor <;> intro b hb <;> cases hb
  · rfl
  · rfl
  · intro f hf
    cases hf

end State

/-! ## What registrations keep -/

/-- What holds of a state and some factories that are held, and is kept by the steps of
registrations. -/
structure Registrable (I : List Factory → State → Prop) : Prop where
  fewer : ∀ {held fewer s}, I held s → fewer ⊆ held → I fewer s
  journal : ∀ {held s} (journal : Journal), I held s → I held { s with journal }
  tables : ∀ {held s} (tables : Tables), tables.bindings = s.tables.bindings → I held s →
    I held { s with tables }
  stores : ∀ {held s} (stores : List (List (Key × Instance))), I held s → I held { s with stores }
  access : ∀ {held s} (properties : PropertySource) (environment : Texts)
    (reportUnmatched alive : Bool), I held s →
      I held { s with properties, environment, reportUnmatched, alive }
  /-- A factory that is held, or without layers, may be guarded. -/
  guard : ∀ {held s f} (key : Key), f ∈ held ∨ f.isCore → I held s → I (.guarded key f :: held) s
  /-- A factory without layers may be wrapped in a scope. -/
  wrap : ∀ {held s} (scope : Scope) (key : Key) (inner : Factory), inner.isCore → I held s →
    ∃ kept t, wrapIn scope key inner s = (.ok kept, t) ∧ I (.guarded key kept :: held) t
  /-- A guarded factory that is held may be bound on request. -/
  put : ∀ {held s f} (key : Key) (source : String), f ∈ held → f.isGuarded → I held s →
    I held { s with tables := s.tables.put { key, factory := f, origin := .explicit source } }

namespace Registrable

variable {I : List Factory → State → Prop} {held : List Factory} (hI : Registrable I)
include hI

theorem keeps_journal (step : StateM Journal Unit) : Keeps (I held) (Assemble.journal step) :=
  fun _ h => hI.journal _ h

theorem keeps_insertBinding (key : Key) {f : Factory} (source : String) (hf : f ∈ held)
    (hguarded : f.isGuarded) :
    Keeps (I held) (insertBinding { key, factory := f, origin := .explicit source }) := by
  have hlog : ∀ message, Keeps (I held) (do
      logBinding { key, factory := f, origin := .explicit source } message
      State.onTables (·.put { key, factory := f, origin := .explicit source }) : Assemble Unit) :=
    fun message => .andThen (hI.keeps_journal _) fun _ _ h => hI.put key source hf hguarded h
  intro s h
  unfold insertBinding
  rw [get_bind]
  cases s.tables.binding? key with
  | none => exact hlog _ s h
  | some old =>
    dsimp only
    split
    · exact hlog _ s h
    · split
      · exact h
      · exact hlog _ s h

theorem keeps_registerBinding (key : Key) {f : Factory} (source : String)
    (hf : f ∈ held ∨ f.isCore) : Keeps (I held) (registerBinding key f source) := fun s h =>
  hI.fewer (hI.keeps_insertBinding key source List.mem_cons_self rfl s (hI.guard key hf h))
    (List.subset_cons_self _ _)

theorem keeps_declareModule (m : Module) : Keeps (I held) (declareModule m) := by
  refine .andThen (hI.keeps_journal _) fun _ => ?_
  cases m.clash with
  | some cause => exact fun _ h => h
  | none => exact hI.keeps_journal _

theorem keeps_installMethod (m : Module) (method : FactoryMethod) :
    Keeps (I held) (installMethod m method) := by
  intro s h
  obtain ⟨log, hscope⟩ := State.scopeFor_spec method.scope s
  obtain ⟨kept, t, hwrap, ht⟩ := hI.wrap (s.tables.scopeOf method.scope) method.key
    (.method method.key method.recipe) rfl (hI.journal { s.journal with log } h)
  unfold installMethod
  rw [bind_ok hscope, bind_ok hwrap]
  refine hI.fewer ?_ (List.subset_cons_self (.guarded method.key kept) held)
  refine Keeps.andThen (I := I (.guarded method.key kept :: held))
    (.each fun key _ _ => ?_) (fun _ _ h => h) t ht
  refine .andThen (hI.keeps_insertBinding key _ List.mem_cons_self rfl) fun _ => ?_
  exact fun _ h => h

theorem keeps_installModule (m : Module) : Keeps (I held) (Assemble.installModule m) := by
  refine .andThen (hI.keeps_declareModule m) fun _ s h => ?_
  rw [get_bind]
  cases firstConflict s m with
  | some cause => exact h
  | none =>
    refine Keeps.andThen (.each fun method _ _ => ?_) (fun _ => hI.keeps_journal _) s h
    exact .andThen (hI.keeps_installMethod m method) fun _ _ h => h

theorem keeps_registerScope (marker : TypePath) (name : ScopeName) :
    Keeps (I held) (do registerScope marker (← newScope name) : Assemble Unit) := by
  have hnew : Keeps (I held) (newScope name) := by
    cases name with
    | unscoped => exact fun _ h => h
    | singleton => exact fun _ h => h
    | memo => exact fun _ h => hI.stores _ h
  refine .andThen hnew fun scope => .andThen (hI.keeps_journal _) fun _ => ?_
  exact fun s h => hI.tables { s.tables with scopes := assign marker scope s.tables.scopes } rfl h

end Registrable

/-- Registrations keep a state settled. -/
theorem State.Settled.registrable : Registrable fun held s => s.Settled held where
  fewer h hfewer := h.sublist hfewer
  journal _ h := ⟨h.toWired.of_same rfl rfl rfl rfl, h.idle, h.unfilled, h.held_tidy⟩
  tables _ hbindings h :=
    ⟨h.toWired.of_same rfl hbindings rfl rfl, h.idle, h.unfilled, h.held_tidy⟩
  stores _ h := ⟨h.toWired.of_same rfl rfl rfl rfl, h.idle, h.unfilled, h.held_tidy⟩
  access _ _ _ _ h := ⟨h.toWired.of_same rfl rfl rfl rfl, h.idle, h.unfilled, h.held_tidy⟩
  guard key hf h := h.hold <| by
    rcases hf with hf | hf
    · exact (h.held_tidy _ hf).under (some key)
    · show Factory.Tidy _ (some key) _
      exact .of_isCore hf
  wrap := by
    intro held s scope key inner hcore h
    obtain ⟨kept, t, hwrap, ht, -, -, htidy⟩ :=
      State.wrapIn_spec (h.sound (fun _ h => h)) scope key inner hcore
    exact ⟨kept, t, hwrap, (h.leads ht).hold (f := .guarded key kept) htidy⟩
  put _ _ hf hguarded h :=
    ⟨h.toWired.put hguarded (h.held_tidy _ hf) (fun himplicit => by cases himplicit), h.idle,
      h.unfilled, h.held_tidy⟩

end ComponentAssembly
