import ComponentAssembly.Proofs.Programs

/-!
# Steps ask only their provider

Takes, stages, resolution and recipes depend on the injector through what they ask their provider
for.  What the answers keep, all programs keep that ask for them (`Program.keeps`), and if two
providers agree on the answers, so do the programs (`Provider.Alike.agrees`):

    p.Alike I E points keys q → Agrees I … (construct p c node path) (construct q c node path)
-/

namespace ComponentAssembly

open Assemble

/-- What is kept by steps that write the journal, count, or put a dependency off. -/
structure Lasting (I : State → Prop) (points : InjectionPoint → Prop) : Prop where
  journal : ∀ s journal, I s → I { s with journal }
  trials : ∀ s trials, I s → I { s with trials }
  counters : ∀ s counters, I s → I { s with counters }
  supplier : ∀ s lookup, I s → lookup.Among points ∨ (∃ key i, lookup = .resolved key (.constant i)) →
    I { s with suppliers := s.suppliers ++ [{ lookup }] }

/-- Two providers, of which the second agrees with the first on some points and keys.  What is kept
and how steps may end is such that steps that ask for nothing respect it. -/
structure Provider.Alike (I : State → Prop) (E : Stop → Prop) (points : InjectionPoint → Prop)
    (keys : Key → Prop) (p q : Provider) : Prop extends Lasting I points where
  plain : ∀ cause : AssemblyError, cause.IsPlain → E (.error cause)
  substitutor : Agrees I (StopsBy E) p.substitutor q.substitutor
  supply : ∀ x, points x → x.isEager →
    Agrees I (StopsBy E) (p.supply x) (q.supply x)
  ask : ∀ key, keys key → Agrees I (StopsBy E) (p.ask key) (q.ask key)
  draw : ∀ x type, points x → Agrees I (StopsBy E)
    (p.draw (.dependency x) type) (q.draw (.dependency x) type)

/-- What is kept by steps that ask for nothing, if they do no more than a remit allows. -/
structure Remit.Keeps (r : Remit) (I : State → Prop) : Prop where
  quiet : ∀ (s : State) (journal : Journal), journal.events = s.journal.events →
    journal.serials = s.journal.serials → s.journal.Warns journal → I s → I { s with journal }
  failure : r.fails → ∀ s path message, I s → I (reportAt .validationFailure path message s).2
  note : ∀ s event, (∀ n ∈ event.component?, r.own n) → I s →
    I (State.onJournal (Journal.note event) s).2
  component : ∀ s type, I s → I (State.onJournal (Journal.newComponent type) s).2 ∧
    r.own (State.onJournal (Journal.newComponent type) s).1.name
  trials : ∀ s trials, I s → I { s with trials }
  counters : ∀ s counters, I s → I { s with counters }
  supplier : ∀ s lookup, I s → lookup.Among r.points ∨ (∃ key i, lookup = .resolved key (.constant i)) →
    I { s with suppliers := s.suppliers ++ [{ lookup }] }
  reads : ∀ s, I s → r.reads s

/-- What lasts is kept whatever components changes are noted of. -/
theorem Lasting.keeps {r : Remit} {I : State → Prop} (hI : Lasting I r.points)
    (hreads : ∀ s, I s → r.reads s) (hown : ∀ n, r.own n) : r.Keeps I where
  quiet s journal _ _ _ hs := hI.journal s journal hs
  failure _ s _ _ hs := hI.journal s _ hs
  note s _ _ hs := hI.journal s _ hs
  component s _ hs := ⟨hI.journal s _ hs, hown _⟩
  trials := hI.trials
  counters := hI.counters
  supplier := hI.supplier
  reads := hreads

/-- Steps that ask for nothing keep what they should, and end as they should. -/
theorem Step.keeps {r : Remit} {I : State → Prop} {α : Type} {Q : α → Prop} {m : StateM State α}
    (hm : Step r Q m) (hI : r.Keeps I) : ∀ s, I s → I (m s).2 ∧ Q (m s).1 := by
  induction hm with
  | pure h => exact fun s hs => ⟨hs, h⟩
  | bind _ _ ih ihf =>
    intro s hs
    obtain ⟨hkeeps, hresult⟩ := ih s hs
    exact ihf _ hresult _ hkeeps
  | journal hquiet hstep =>
    intro s hs
    obtain ⟨hevents, hserials, hwarns⟩ := hquiet.still s.journal
    exact ⟨hI.quiet s _ hevents hserials hwarns hs, hstep s.journal⟩
  | failure h path message => exact fun s hs => ⟨hI.failure h s path message hs, trivial⟩
  | note h => exact fun s hs => ⟨hI.note s _ h hs, trivial⟩
  | component type => exact fun s hs => hI.component s type hs
  | trial owner message => exact fun s hs => ⟨hI.trials s _ hs, trivial⟩
  | number name => exact fun s hs => ⟨hI.counters s _ hs, trivial⟩
  | supplier type h => exact fun s hs => ⟨hI.supplier s _ hs h, trivial⟩

/-- What the answers of a provider keep, and how they end. -/
structure Provider.Keeps (p : Provider) (r : Remit) (I : State → Prop) : Prop where
  substitutor : ∀ s, I s → I (p.substitutor s).2 ∧ StopsBy r.stops (p.substitutor s).1
  supply : ∀ x, r.points x → ∀ s, I s → I (p.supply x s).2 ∧ StopsBy r.stops (p.supply x s).1
  ask : ∀ key, r.keys key → ∀ s, I s → I (p.ask key s).2 ∧ StopsBy r.stops (p.ask key s).1
  draw : ∀ x type, r.points x → ∀ s, I s →
    I (p.draw (.dependency x) type s).2 ∧ StopsBy r.stops (p.draw (.dependency x) type s).1

/-- Where any end will do, the answers of a provider need only keep what they should. -/
theorem Provider.Keeps.answers {p : Provider} {r : Remit} {I : State → Prop}
    (hends : ∀ stop, r.stops stop) (hsubstitutor : ComponentAssembly.Keeps I p.substitutor)
    (hsupply : ∀ x, ComponentAssembly.Keeps I (p.supply x))
    (hask : ∀ key, ComponentAssembly.Keeps I (p.ask key))
    (hdraw : ∀ x type, ComponentAssembly.Keeps I (p.draw (.dependency x) type)) : p.Keeps r I := by
  have hstops : ∀ {α : Type} (result : Except Stop α), StopsBy r.stops result := by
    intro α result
    cases result with
    | ok a => trivial
    | error stop => exact hends stop
  exact ⟨fun s hs => ⟨hsubstitutor s hs, hstops _⟩, fun x _ s hs => ⟨hsupply x s hs, hstops _⟩,
    fun key _ s hs => ⟨hask key s hs, hstops _⟩, fun x type _ s hs => ⟨hdraw x type s hs, hstops _⟩⟩

/-- Programs keep what their own steps and the answers to their questions keep. -/
theorem Program.keeps {r : Remit} {I : State → Prop} {p : Provider} (hI : r.Keeps I)
    (hp : p.Keeps r I) {α : Type} [inst : Stoppable α] {Q : α → Prop} {m : Provider → StateM State α}
    (hm : Program r Q m) : ∀ s, I s → I (m p s).2 ∧ Q (m p s).1 := by
  induction hm with
  | pure ha => exact fun s hs => ⟨hs, ha⟩
  | bind _ _ _ ih ihf =>
    intro s hs
    obtain ⟨hkeeps, hresult⟩ := ih s hs
    exact ihf _ hresult _ hkeeps
  | after hstep _ ihf =>
    intro s hs
    obtain ⟨hkeeps, hresult⟩ := hstep.keeps hI s hs
    exact ihf _ hresult _ hkeeps
  | look _ _ ihf => exact fun s hs => ihf s (hI.reads s hs) s hs
  | substitutor => exact hp.substitutor
  | supply hx _ => exact hp.supply _ hx
  | ask hkey => exact hp.ask _ hkey
  | draw hx type => exact hp.draw _ type hx

namespace Provider.Alike

variable {I : State → Prop} {E : Stop → Prop} {points : InjectionPoint → Prop} {keys : Key → Prop}
  {p q : Provider}

/-- What a program may do that asks for some points and keys. -/
def remit (h : p.Alike I E points keys q) : Remit where
  stops := E
  points := points
  keys := keys
  own _ := True
  fails := True
  reads := I
  plain := h.plain

/-- Programs do the same with providers that are alike on what they may ask for. -/
theorem agrees {r : Remit} (h : p.Alike I r.stops r.points r.keys q) (hreads : ∀ s, I s → r.reads s)
    (hown : ∀ n, r.own n) {α : Type} [inst : Stoppable α] {Q : α → Prop}
    {m : Provider → StateM State α} (hm : Program r Q m) : Agrees I Q (m p) (m q) := by
  induction hm with
  | pure ha => exact .pure ha
  | bind _ _ hstop ih ihf => exact .bind ih ihf (hstop p)
  | after hstep _ ihf =>
    intro s hs
    obtain ⟨hkeeps, hresult⟩ := hstep.keeps (h.toLasting.keeps hreads hown) s hs
    have hrest := ihf _ hresult _ hkeeps
    exact ⟨hrest.keeps, hrest.result, hrest.same⟩
  | look _ _ ihf =>
    intro s hs
    have hrest := ihf s (hreads s hs) s hs
    exact ⟨hrest.keeps, hrest.result, hrest.same⟩
  | substitutor => exact h.substitutor
  | supply hx heager => exact h.supply _ hx heager
  | ask hkey => exact h.ask _ hkey
  | draw hx type => exact h.draw _ type hx

/-- A factory without layers asks for its keys and for the points of its construction. -/
theorem run_core (h : p.Alike I E points keys q) {f : Factory} (hf : f.isCore)
    (hkeys : ∀ key ∈ f.keys, keys key)
    (hpoints : ∀ key c, f = .construct key c → ∀ x ∈ c.points, points x) :
    Agrees I (StopsBy E) (f.run p) (f.run q) :=
  agrees (r := h.remit) h (fun _ hs => hs) (fun _ => trivial) (Program.run_core hf hkeys hpoints)

theorem configureNode (h : p.Alike I E points keys q) (n : Node Instance) (path : String)
    (hdeclared : ∀ s, I s → ∀ type, ∀ x ∈ (s.declared type).points, points x) :
    Agrees I (fun r => StopsBy E r.1) (Assemble.configureNode p n path)
      (Assemble.configureNode q n path) :=
  agrees (r := h.remit) h (fun _ hs => hs) (fun _ => trivial)
    (Program.configureNode n path trivial hdeclared)

end Provider.Alike

/-! ## Runs of the resolution of a point -/

namespace Assemble

variable (given : Provider) {p : InjectionPoint} (c : VisitContext) (f : Focus) (s : State)

theorem resolveDependency_deferred (h : p.deferred = true) : resolveDependency given p c s =
    (.ok (.deferred (.dependency p), c.log p.name ("Supplier<" ++ p.key.text ++ ">")), s) := by
  simp [resolveDependency, h]

theorem resolveDependency_supplied (h : p.deferred = false) :
    resolveDependency given p c s = match given.supply p s with
      | (.ok (some i), t) => (.ok (.object i, c.log p.name p.key.text), t)
      | (.ok none, t) => (.ok (.absent, c.log p.name "null"), t)
      | (.error stop, t) => (.error stop, t) := by
  rcases hsupply : given.supply p s with ⟨_ | _ | _, _⟩ <;> simp [resolveDependency, h, hsupply]

/-- A dependency is resolved apart from the node. -/
theorem resolvePoint_apart (hvisit : Visit.visit? p = none) :
    resolvePoint given p f s = match resolveDependency given p f.context s with
      | (.ok (argument, context), t) => ((.ok argument, { f with context }), t)
      | (.error stop, t) => ((.error stop, f), t) := by
  rcases hrun : resolveDependency given p f.context s with ⟨_ | ⟨_, _⟩, _⟩ <;>
    simp [resolvePoint, hvisit, hrun]

/-- Any other point is visited, at an empty node if there is none. -/
theorem resolvePoint_visited {visit : Visit → StateM Journal (Except AssemblyError Argument × Visit)}
    {result : Except AssemblyError Argument} {v : Visit} {journal : Journal}
    (hvisit : Visit.visit? p = some visit)
    (hrun : visit { node := f.node.getD .empty, context := f.context } s.journal =
      ((result, v), journal)) : resolvePoint given p f s =
        ((result.mapError .error, { node := f.node.map fun _ => v.node, context := v.context }),
          { s with journal }) := by
  cases result <;> simp [resolvePoint, hvisit, hrun]

end Assemble

end ComponentAssembly
