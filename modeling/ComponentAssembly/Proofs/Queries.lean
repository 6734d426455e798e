import ComponentAssembly.Proofs.Growth
import ComponentAssembly.Proofs.Requests

/-!
# Queries return

A query is a request that has factories looked up or run.  At rest it has depth enough for all keys
that are known, so it returns, and reachable states are settled:

    Reachable s held → s.Settled held
    Reachable s held → r.run s is not exhausted, and a watch on the keys in progress does not change it

the second in `Reachable.query_returns`.
-/

namespace ComponentAssembly

open Assemble Stoppable

/-! ## Queries -/

/-- Runs a factory under a watch, with room for more nested calls than it is given otherwise. -/
def Factory.callWatched (bound extra : Nat) (f : Factory) : Assemble Instance := do
  callThrough (.watched bound) ((← get).depthFor f + extra) f

namespace Request

def isQuery : Request → Bool
  | getFactory _ => true
  | getInstance _ => true
  | call _ => true
  | getSupplier .. => true
  | pull _ => true
  | configure _ => true
  | _ => false

def keys : Request → List Key
  | getFactory key => [key]
  | getInstance key => [key]
  | call f => f.keys
  | getSupplier key _ => [key]
  | _ => []

/-- Answers a request under a watch: it halts where the keys in progress are not distinct, or more
than a bound.  There is room for some more nested calls than otherwise. -/
def watch (bound extra : Nat) : Request → StateM State Reply
  | getInstance key =>
    .object <$> (do (← Assemble.getFactory key).callWatched bound extra : Assemble Instance).run
  | call f => .object <$> (f.callWatched bound extra).run
  | pull supplier => .object <$> (Assemble.pull (·.callWatched bound extra) supplier).run
  | configure n => (fun r => .configured r.1 r.2) <$> do
    let depth := (← get).knownKeys.length + 2 + extra
    configureNode (.watched bound (callThrough (.watched bound) depth)) n n.name
  | r => r.run

end Request

/-- A request that is no query keeps what registrations keep, and hands out no factory. -/
theorem Registrable.run_registration {I : List Factory → State → Prop} (hI : Registrable I)
    {s : State} {held : List Factory} {r : Request} (hr : r.Allowed held) (hq : ¬ r.isQuery)
    (h : I held s) : I ((r.run s).1.factories ++ held) (r.run s).2 := by
  cases r with
  | registerConstruction type maker =>
    exact hI.tables { s.tables with
      constructions := assign type maker s.tables.constructions } rfl h
  | registerScope marker name => exact hI.keeps_registerScope marker name s h
  | registerBinding key f source => exact hI.keeps_registerBinding key source hr s h
  | installModule m => exact hI.keeps_installModule m s h
  | release => exact hI.access s.properties s.environment s.reportUnmatched false h
  | set properties environment reportUnmatched =>
    exact hI.access properties environment reportUnmatched s.alive h
  | readJournal read => exact hI.journal _ h
  | _ => exact absurd rfl hq

/-- A query only adds to a state, whatever state it is. -/
theorem Request.growing_query {r : Request} (hq : r.isQuery) : Growing r.run := by
  cases r with
  | getFactory key => exact fun s => (s.getFactory_discovers key).grows
  | getInstance key =>
    exact Growing.andThen (fun s => (s.getFactory_discovers key).grows) fun f => Growing.call f
  | call f => exact Growing.call f
  | getSupplier key type => exact Growing.getSupplier key type
  | pull supplier => exact Growing.pull Growing.call supplier
  | configure n => exact Growing.configure n
  | _ => cases hq

def State.after (s : State) : List Request → State
  | [] => s
  | r :: rs => (r.run s).2.after rs

/-- The keys that can come into progress at a request. -/
def State.keysAt (s : State) (r : Request) : List Key :=
  s.knownKeys ++ r.keys

section

variable {U : List Key} {s : State} {held : List Factory} {bound : Nat}

theorem not_exhausted {α : Type} (r : Except Stop α) (hr : StopsBy (· ≠ .exhausted) r) :
    stop? r ≠ some .exhausted := by
  cases r with
  | ok a => exact fun hne => by cases hne
  | error stop => exact fun hne => hr (Option.some.inj hne)

/-- At rest, a call has depth enough for all keys that are known and its own. -/
theorem callThrough_agrees_idle (h : s.Settled held) (hU : s.knownKeys ⊆ U) {f : Factory}
    (hf : s.Admits U f) (hbound : U.dedup.length ≤ bound) {depth depth' : Nat}
    (hdepth : s.depthFor f ≤ depth) (hle : depth ≤ depth') :
    AgreesAt (s.Leads U) (StopsBy (· ≠ .exhausted)) (callThrough (.watched bound) depth f)
      (callWithin depth' f) s := by
  have hV : s.knownKeys ++ f.keys ⊆ U := List.append_subset.mpr ⟨hU, hf.keys⟩
  have hdedup : (s.knownKeys ++ f.keys).dedup.length ≤ U.dedup.length :=
    ((List.nodup_dedup _).subperm fun k hk =>
      List.mem_dedup.mpr (hV (List.mem_dedup.mp hk))).length_le
  have hlength : (s.knownKeys ++ f.keys).dedup.length ≤ s.knownKeys.length + f.keys.length := by
    rw [← List.length_append]
    exact (List.dedup_sublist _).length_le
  have hroom : s.depthFor f = s.knownKeys.length + f.keys.length + 2 := rfl
  refine (callThrough_agrees (hdedup.trans hbound) depth depth' f s hle
    (h.sound (List.subset_append_left _ _)) ⟨List.subset_append_right _ _, hf.tidy⟩ (by omega)
    (.inr (by omega))).mono (fun t ht => ht.mono hV) fun _ h => h

/-- At rest, neither a watch nor more depth changes a call. -/
theorem callWatched_agrees (h : s.Settled held) (hU : s.knownKeys ⊆ U) {f : Factory}
    (hf : s.Admits U f) (hbound : U.dedup.length ≤ bound) (extra : Nat) :
    AgreesAt (s.Leads U) (StopsBy (· ≠ .exhausted)) (f.callWatched bound extra) f.call s := by
  have hcall : ∀ {depth depth'}, s.depthFor f ≤ depth → depth ≤ depth' →
      AgreesAt (s.Leads U) (StopsBy (· ≠ .exhausted)) (callThrough (.watched bound) depth f)
        (callWithin depth' f) s :=
    callThrough_agrees_idle h hU hf hbound
  refine .after (a := s) (t := s) rfl ?_
  exact (hcall (Nat.le_refl _) (Nat.le_refl _)).bridge (hcall (Nat.le_refl _) (Nat.le_add_right _ _))
    (hcall (Nat.le_add_right _ extra) (Nat.le_refl _)) not_exhausted

theorem callWithin_eq_call (h : s.Settled held) {f : Factory} (hf : s.Admits s.knownKeys f)
    {depth : Nat} (hdepth : s.depthFor f ≤ depth) : callWithin depth f s = f.call s := by
  have hU := List.Subset.refl s.knownKeys
  have hdeep := callThrough_agrees_idle h hU hf (Nat.le_refl _) (Nat.le_refl _) hdepth
  have hcall := callThrough_agrees_idle h hU hf (Nat.le_refl _) (Nat.le_refl _) (Nat.le_refl _)
  exact (hdeep.same (not_exhausted _ hdeep.result)).trans
    (hcall.same (not_exhausted _ hcall.result)).symm

/-- At rest, running a factory only adds to the state. -/
theorem call_leads (h : s.Settled held) (hU : s.knownKeys ⊆ U) {f : Factory} (hf : s.Admits U f) :
    s.Leads U (f.call s).2 := by
  have hagrees := callWatched_agrees h hU hf (Nat.le_refl _) 0
  rw [hagrees.same (not_exhausted _ hagrees.result)]
  exact hagrees.keeps

theorem State.Finds.agrees {P : Factory → Prop} {m : Assemble Factory} (h : State.Finds U s P m) :
    AgreesAt (s.Leads U) (StopsBy (· ≠ .exhausted)) m m s := by
  rcases h with ⟨f, t, hok, ht, -⟩ | ⟨cause, t, hfail, ht⟩
  · refine ⟨?_, ?_, fun _ => rfl⟩
    · rw [hok]
      exact ht
    · rw [hok]
      trivial
  · refine ⟨?_, ?_, fun _ => rfl⟩
    · rw [hfail]
      exact ht
    · rw [hfail]
      exact fun hne => by cases hne

/-- At rest, a configuration has depth enough for all keys that are known. -/
theorem configure_agrees (h : s.Settled held) (hU : s.knownKeys ⊆ U)
    (hbound : U.dedup.length ≤ bound) {depth : Nat} (hdepth : U.dedup.length < depth)
    (extra : Nat) (n : Node Instance) :
    AgreesAt (s.Leads U) (fun r => StopsBy (· ≠ .exhausted) r.1)
      (configureNode (.watched bound (callThrough (.watched bound) (depth + extra))) n n.name)
      (configureNode (Provider.of (callWithin depth)) n n.name) s := by
  have hconfigure : ∀ depth depth', U.dedup.length < depth → depth ≤ depth' →
      AgreesAt (s.Leads U) (fun r => StopsBy (· ≠ .exhausted) r.1)
        (configureNode (.watched bound (callThrough (.watched bound) depth)) n n.name)
        (configureNode (Provider.of (callWithin depth')) n n.name) s := by
    intro depth depth' hdepth hle
    have hasks : (Provider.watched bound (callThrough (.watched bound) depth)).Alike (s.Leads U)
        (· ≠ .exhausted) (fun x => x.key ∈ U) (· ∈ U) (Provider.of (callWithin depth')) := by
      refine (asks_agree (fun cause => by simp) fun f t ht hadmits hf => ?_).watched
      refine callThrough_agrees hbound depth depth' f t hle ht.sound hadmits ?_ (.inl hf)
      rw [ht.evolves.inProgress, h.idle]
      simpa using hdepth
    refine hasks.configureNode n n.name (fun t ht type x hx => ?_) s (.refl (h.sound hU))
    have hdeclared := (State.knownKeys_subset_iff.mp ht.sound.known).2.1
    exact hdeclared (t.keys_declared_subset type (List.mem_map.mpr ⟨x, hx, rfl⟩))
  exact (hconfigure _ _ hdepth (Nat.le_refl _)).bridge (hconfigure _ _ hdepth (by omega))
    (hconfigure (depth + extra) _ (by omega) (Nat.le_refl _)) fun r hr => not_exhausted r.1 hr

/-- **Queries.**  A query returns, and the watch does not change it. -/
theorem query_agrees (h : s.Settled held) {r : Request} (hr : r.Allowed held) (hq : r.isQuery)
    (hbound : (s.keysAt r).dedup.length ≤ bound) (extra : Nat) :
    AgreesAt (s.Leads (s.keysAt r)) (fun reply => stop? reply ≠ some .exhausted)
      (r.watch bound extra) r.run s := by
  have hknown : s.knownKeys ⊆ s.keysAt r := List.subset_append_left _ _
  have hs := h.sound hknown
  cases r with
  | registerConstruction _ _ => cases hq
  | registerScope _ _ => cases hq
  | registerBinding _ _ _ => cases hq
  | installModule _ => cases hq
  | release => cases hq
  | set _ _ _ => cases hq
  | readJournal _ => cases hq
  | getFactory key =>
    have hfinds := State.getFactory_finds hs key (by simp [State.keysAt, Request.keys])
    exact hfinds.agrees.map (fun _ => rfl) not_exhausted
  | getInstance key =>
    refine AgreesAt.map ?_ (fun _ => rfl) not_exhausted
    rcases State.getFactory_finds hs key (by simp [State.keysAt, Request.keys]) with
      ⟨f, t, hok, ht, hadmits, -⟩ | ⟨cause, t, hfail, ht⟩
    · refine .after hok ?_
      exact (callWatched_agrees (h.leads ht) ht.sound.known hadmits hbound extra).mono
        (fun u hu => ht.trans hu) fun _ h => h
    · exact .stopped hfail ht (by simp)
  | call f =>
    refine AgreesAt.map ?_ (fun _ => rfl) not_exhausted
    exact callWatched_agrees h hknown ⟨List.subset_append_right _ _, h.held_tidy f hr⟩ hbound extra
  | getSupplier key type =>
    have hmade : AgreesAt (s.Leads (s.keysAt (.getSupplier key type))) (StopsBy (· ≠ .exhausted))
        (Assemble.getSupplier key type) (Assemble.getSupplier key type) s := by
      rcases State.getFactory_finds hs key (by simp [State.keysAt, Request.keys]) with
        ⟨f, t, hok, ht, hadmits, -⟩ | ⟨cause, t, hfail, ht⟩
      · refine .after hok (Agrees.lift (fun u hu => ?_) t (.refl ht.sound) |>.mono
          (fun u hu => ht.trans hu) fun _ h => h)
        refine hu.trans (hu.sound.newSupplier (.resolved key f) hadmits.keys ?_)
        intro g hg
        cases hg
        exact hadmits.tidy.mono hu.evolves.owners
      · exact .stopped hfail ht (by simp)
    exact hmade.map (fun _ => rfl) not_exhausted
  | pull supplier =>
    refine AgreesAt.map ?_ (fun _ => rfl) not_exhausted
    refine pull_agrees (fun cause => by simp) hs supplier True (.inl trivial) ?_
    intro f t ht hadmits _
    exact callWatched_agrees (h.leads ht) ht.sound.known hadmits hbound extra
  | configure n =>
    have hdepth : (s.keysAt (.configure n)).dedup.length < s.knownKeys.length + 2 := by
      have := (List.dedup_sublist (s.keysAt (.configure n))).length_le
      simp only [State.keysAt, Request.keys, List.append_nil] at this ⊢
      omega
    refine AgreesAt.map (Q := fun r => StopsBy (· ≠ .exhausted) r.1) ?_ (fun _ => rfl)
      fun r hr => not_exhausted r.1 hr
    obtain ⟨hkeeps, hresult, hsame⟩ := configure_agrees h hknown hbound hdepth extra n
    exact ⟨hkeeps, hresult, hsame⟩

end

/-- A query only adds to the state. -/
theorem query_leads {s : State} {held : List Factory} (h : s.Settled held) {r : Request}
    (hr : r.Allowed held) (hq : r.isQuery) : s.Leads (s.keysAt r) (r.run s).2 := by
  have hagrees := query_agrees h hr hq (Nat.le_refl _) 0
  rw [hagrees.same hagrees.result]
  exact hagrees.keeps

/-! ## Reachable states -/

/-- A request leaves a settled state, and a factory that it hands out is in order. -/
theorem Request.run_settled {s : State} {held : List Factory} (h : s.Settled held) {r : Request}
    (hr : r.Allowed held) : (r.run s).2.Settled ((r.run s).1.factories ++ held) := by
  by_cases hq : r.isQuery
  · have hsettled := h.leads (query_leads h hr hq)
    cases r with
    | getFactory key =>
      rcases State.getFactory_finds (U := s.keysAt (.getFactory key))
        (h.sound (List.subset_append_left _ _)) key (by simp [State.keysAt, Request.keys]) with
        ⟨f, t, hok, ht, hadmits, -⟩ | ⟨cause, t, hfail, ht⟩
      · rw [run_getFactory, hok] at hsettled ⊢
        exact hsettled.hold hadmits.tidy
      · rw [run_getFactory, hfail] at hsettled ⊢
        exact hsettled
    | getInstance key => exact hsettled
    | call f => exact hsettled
    | getSupplier key type => exact hsettled
    | pull supplier => exact hsettled
    | configure n => exact hsettled
    | _ => cases hq
  · exact State.Settled.registrable.run_registration hr hq h

theorem Reachable.settled {s : State} {held : List Factory} (h : Reachable s held) :
    s.Settled held := by
  induction h with
  | initial declarations properties environment => exact State.settled_initial _ _ _
  | step _ r hr ih => exact Request.run_settled ih hr

/-- **Queries return.**  In every reachable state, a query ends: it never waits for a cell that it
is to fill itself, and its calls are nested no deeper than there are distinct keys to come into
progress, however much room there is.  Whenever a key comes into progress, the keys in progress are
distinct; in the end none is left. -/
theorem Reachable.query_returns {s : State} {held : List Factory} (h : Reachable s held)
    {r : Request} (hr : r.Allowed held) (hq : r.isQuery) :
    stop? (r.run s).1 ≠ some .exhausted ∧
      (∀ extra, r.watch (s.keysAt r).dedup.length extra s = r.run s) ∧
        (r.run s).2.inProgress = [] ∧ (r.run s).2.filling = [] := by
  have hagrees := query_agrees h.settled hr hq (Nat.le_refl _)
  have hsame : ∀ extra, r.run s = r.watch (s.keysAt r).dedup.length extra s := fun extra =>
    (hagrees extra).same (hagrees extra).result
  refine ⟨?_, fun extra => (hsame extra).symm, ?_, ?_⟩
  · rw [hsame 0]
    exact (hagrees 0).result
  · rw [hsame 0]
    exact (hagrees 0).keeps.evolves.inProgress.trans h.settled.idle
  · rw [hsame 0]
    exact (hagrees 0).keeps.evolves.filling.trans h.settled.unfilled

def Request.bindAsking (type asked : TypePath) : Request :=
  .registerBinding (.of type) (.recipe { type, body := .gather [.of asked] [] none } true) "bind"

/-- Two keys whose factories ask for each other. -/
def State.entangled : State :=
  ((Request.bindAsking ⟨"Right"⟩ ⟨"Left"⟩).run
    ((Request.bindAsking ⟨"Left"⟩ ⟨"Right"⟩).run (.initial [] {} [])).2).2

/-- Factories that ask for each other are stopped where the first key would come into progress
again. -/
theorem query_returns_entangled :
    ((Request.getInstance (.of ⟨"Left"⟩)).run .entangled).1 =
        .object (.error (.error (.circularDependency [.of ⟨"Left"⟩, .of ⟨"Right"⟩, .of ⟨"Left"⟩]))) ∧
      ∀ extra, (Request.getInstance (.of ⟨"Left"⟩)).watch
          (State.entangled.keysAt (.getInstance (.of ⟨"Left"⟩))).dedup.length extra .entangled =
        (Request.getInstance (.of ⟨"Left"⟩)).run .entangled :=
  ⟨by rfl, (((Reachable.initial [] {} []).step (.bindAsking ⟨"Left"⟩ ⟨"Right"⟩) (.inr rfl)).step
    (.bindAsking ⟨"Right"⟩ ⟨"Left"⟩) (.inr rfl)).query_returns
      (r := .getInstance (.of ⟨"Left"⟩)) trivial rfl |>.2.1⟩

end ComponentAssembly
