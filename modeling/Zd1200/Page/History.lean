import Mathlib.Data.List.Basic
import Zd1200.Lib.Script

/-!
# The History of the Page

How `ping-monitor.html` loads a window of the history and draws it.

An action that changes the range, the band or the time page begins a load. A
load waits twice, for the indexes of the snapshots and for a context, and then
posts a request to the worker under the next job number. An answer is drawn if
its number is that of the last request. Only what a load keeps in local
variables is its own: the start of the window and the band are read again when
the request is posted, and once more when an answer is drawn.

So loads that overlap can go wrong. Whichever load posts last is drawn,
whatever is selected by then, and what has been drawn is drawn again by every
other action while a load is on its way. A band is even drawn before its load
has begun. What is drawn is right as long as it is the answer to the load that
was begun last.

The event loop runs one handler at a time, up to its next `await`, so a
handler, or what is left of a load after an `await`, is one event here.

## Main definitions

* `Page`: The variables of the page, its loads and the worker's requests.
* `Page.after`: One event.
* `AlwaysShown`: Everything that was drawn was of the selected window.
* `InStep`: An event that draws no answer but that of the last load.

## Theorems

* `after_current`: What an event in step keeps.
* `viewAp_mislabelled`: A switch of the band labels an answer wrongly.
* `alwaysShown_of_meets`: What is drawn over sequences of events.
-/

namespace Zd1200

/-- The choices of the range, in hours. -/
inductive Hours
  | one
  | six
  | day
  | week
  | month
  deriving DecidableEq, Repr

/-- An entry of `RANGE`. -/
structure RangeSpec where
  seconds : Nat
  bucket : Nat
  deriving DecidableEq, Repr

/-- `RANGE[state.hours]`. -/
def range : Hours → RangeSpec
  | .one => ⟨3600, 60⟩
  | .six => ⟨21600, 300⟩
  | .day => ⟨86400, 900⟩
  | .week => ⟨604800, 7200⟩
  | .month => ⟨2592000, 21600⟩

inductive Band
  | a
  | g
  deriving DecidableEq, Repr

/-- `state.band==='a'?'g':'a'`. -/
def Band.other : Band → Band
  | a => g
  | g => a

inductive View
  | network
  | client
  deriving DecidableEq, Repr

/-- What a history is computed with. -/
structure Window where
  rangeStart : Int
  rangeEnd : Int
  bucketSeconds : Nat
  band : Band
  deriving DecidableEq, Repr

/-- What a load waits for. -/
inductive Awaits
  | snapshots
  | context
  deriving DecidableEq, Repr

/-- A run of `loadHistory` that waits, with its local variables. -/
structure Load where
  number : Nat
  spec : RangeSpec
  stop : Int
  awaits : Awaits
  deriving DecidableEq, Repr

/-- A request to the worker, with the load that posted it. -/
structure Request where
  id : Nat
  load : Nat
  window : Window
  deriving DecidableEq, Repr

/-- The page. `started` counts the loads, `requests` are those that the worker
    has not answered, and `drawn` has the window of every answer that was drawn
    beside the one that was selected then. -/
structure Page where
  view : View
  hours : Hours
  band : Band
  timePage : Nat
  resultStart : Int
  ready : Bool
  started : Nat
  loads : List Load
  job : Nat
  requests : List Request
  result : Option Request
  drawn : List (Window × Window)

/-- The page with the selection of its address. -/
def Page.opened (view : View) (hours : Hours) (band : Band) (timePage : Nat) : Page :=
  { view, hours, band, timePage, resultStart := 0, ready := false, started := 0, loads := []
    job := 0, requests := [], result := none, drawn := [] }

/-- The window that labels are drawn for. -/
def Page.shown (p : Page) : Window where
  rangeStart := p.resultStart
  rangeEnd := p.resultStart + (range p.hours).seconds
  bucketSeconds := (range p.hours).bucket
  band := p.band

/-- `render`. -/
def Page.render (p : Page) : Page :=
  match p.result with
  | none => p
  | some result => { p with drawn := p.drawn ++ [(result.window, p.shown)] }

/-- `Math.ceil((now-spec.seconds)/spec.bucket)*spec.bucket-state.timePage*spec.seconds`. -/
def windowStart (spec : RangeSpec) (timePage now : Nat) : Int :=
  -((spec.seconds - now) / (spec.bucket : Int)) * spec.bucket - timePage * spec.seconds

/-- `loadHistory`, up to its first `await`. Before the manifests are there a
    load fails. -/
def Page.loadHistory (now : Nat) (p : Page) : Page :=
  let spec := range p.hours
  let resultStart := windowStart spec p.timePage now
  { p with
    resultStart
    started := p.started + 1
    loads :=
      if p.ready then
        p.loads ++ [⟨p.started + 1, spec, resultStart + spec.seconds, .snapshots⟩]
      else p.loads }

/-- What happens to the page. The number of a load says whose fetches are
    completed. Every other action that draws is a `redraw`; some of them open a
    row in its view. -/
inductive PageEvent
  | ready (now : Nat)
  | viewAp (now : Nat)
  | changeRange (hours : Hours) (now : Nat)
  | timeEarlier (now : Nat)
  | timeLater (now : Nat)
  | redraw (view : View)
  | snapshots (load : Nat) (ok : Bool)
  | context (load : Nat)
  | answer (id : Nat)
  | error (id : Nat)

/-- The rest of `loadHistory`, once the context is there. -/
def Page.post (p : Page) (load : Load) : Page :=
  { p with
    loads := p.loads.erase load
    job := p.job + 1
    requests := p.requests ++
      -- The start and the band are read again, the rest is from before the waiting.
      [⟨p.job + 1, load.number, ⟨p.resultStart, load.stop, load.spec.bucket, p.band⟩⟩] }

/-- `worker.onmessage` with a history. -/
def Page.receive (p : Page) (request : Request) : Page :=
  let p := { p with requests := p.requests.erase request }
  -- Only the number of the job is compared, which says nothing of the load.
  if request.id ≠ p.job then p else { p with result := some request }.render

/-- One event. -/
def Page.after (p : Page) : PageEvent → Page
  | .ready now => { p with ready := true }.loadHistory now
  | .viewAp now =>
      if p.view ≠ .network then { p with view := .network }.render
      else ({ p with band := p.band.other }.render).loadHistory now
  | .changeRange hours now => { p with hours, timePage := 0 }.loadHistory now
  | .timeEarlier now => { p with timePage := p.timePage + 1 }.loadHistory now
  | .timeLater now =>
      if p.timePage = 0 then p else { p with timePage := p.timePage - 1 }.loadHistory now
  | .redraw view => { p with view }.render
  | .snapshots number ok =>
      match p.loads.find? fun load => load.number = number ∧ load.awaits = .snapshots with
      | none => p
      | some load =>
          let loads := p.loads.erase load
          if ok then { p with loads := loads ++ [{ load with awaits := .context }] }
          else { p with loads }
  | .context number =>
      match p.loads.find? fun load => load.number = number ∧ load.awaits = .context with
      | none => p
      | some load => p.post load
  | .answer id =>
      match p.requests.find? fun request => request.id = id with
      | none => p
      | some request => p.receive request
  | .error id => { p with requests := p.requests.filter fun request => request.id ≠ id }

/-- Everything that was drawn was of the window that was selected then. -/
def AlwaysShown (p : Page) : Prop := ∀ drawing ∈ p.drawn, drawing.1 = drawing.2

instance (p : Page) : Decidable (AlwaysShown p) := inferInstanceAs (Decidable (∀ _ ∈ _, _))

/-- What is there to draw is the answer to the load that was begun last. -/
def UpToDate (p : Page) : Prop := ∀ request ∈ p.result, request.load = p.started

/-- The event draws no answer but that of the load that was begun last. A
    switch of the band draws what is there for the other band. -/
def InStep (p : Page) : PageEvent → Prop
  | .viewAp _ => if p.view ≠ .network then UpToDate p else p.result = none
  | .redraw _ => UpToDate p
  | .answer id =>
      ∀ request ∈ p.requests.find? fun request => request.id = id,
        request.id = p.job → request.load = p.started
  | _ => True

instance (p : Page) : Decidable (UpToDate p) := inferInstanceAs (Decidable (∀ _ ∈ _, _))

instance (p : Page) : ∀ event, Decidable (InStep p event)
  | .viewAp _ => inferInstanceAs (Decidable (if p.view ≠ .network then UpToDate p
      else p.result = none))
  | .answer _ => inferInstanceAs (Decidable (∀ _ ∈ _, _))
  | .redraw _ => inferInstanceAs (Decidable (UpToDate p))
  | .ready _ => isTrue trivial
  | .changeRange _ _ => isTrue trivial
  | .timeEarlier _ => isTrue trivial
  | .timeLater _ => isTrue trivial
  | .snapshots _ _ => isTrue trivial
  | .context _ => isTrue trivial
  | .error _ => isTrue trivial

/-! ### The load that was begun last -/

/-- The load that was begun last has the selected window, wherever it is. -/
structure Current (p : Page) : Prop where
  loads : ∀ load ∈ p.loads, load.number ≤ p.started ∧
    (load.number = p.started →
      load.spec = range p.hours ∧ load.stop = p.resultStart + (range p.hours).seconds)
  requests : ∀ request ∈ p.requests, request.load ≤ p.started ∧
    (request.load = p.started → request.window = p.shown)
  result : ∀ request ∈ p.result, request.load ≤ p.started ∧
    (request.load = p.started → request.window = p.shown)
  drawn : AlwaysShown p

/-- What is drawn is of the selected window if it is up to date. -/
theorem render_current (p : Page) (hp : Current p) (hresult : UpToDate p) : Current p.render := by
  unfold Page.render
  cases heq : p.result with
  | none => exact hp
  | some request =>
      refine ⟨hp.loads, hp.requests, fun other hother => hp.result other (by rw [heq]; exact hother),
        ?_⟩
      intro drawing hdrawing
      rcases List.mem_append.mp hdrawing with hold | hnew
      · exact hp.drawn drawing hold
      · rw [List.mem_singleton.mp hnew]
        exact (hp.result request heq).2 (hresult request heq)

-- Nothing is drawn without an answer.
theorem render_none (p : Page) (h : p.result = none) : p.render = p := by
  rw [Page.render, h]

/-- A load is begun for the selected window, and every other one is older. -/
theorem loadHistory_current (p : Page) (now : Nat)
    (hloads : ∀ load ∈ p.loads, load.number ≤ p.started)
    (hrequests : ∀ request ∈ p.requests, request.load ≤ p.started)
    (hresult : ∀ request ∈ p.result, request.load ≤ p.started) (hdrawn : AlwaysShown p) :
    Current (p.loadHistory now) := by
  have holder : ∀ n, n ≤ p.started → n ≤ p.started + 1 ∧ n ≠ p.started + 1 := fun n h => by omega
  refine ⟨?_, ?_, ?_, hdrawn⟩
  · intro load hload
    rw [Page.loadHistory] at hload ⊢
    simp only at hload ⊢
    have hcases : load ∈ p.loads ∨ load = ⟨p.started + 1, range p.hours,
        windowStart (range p.hours) p.timePage now + (range p.hours).seconds, .snapshots⟩ := by
      split at hload
      · rcases List.mem_append.mp hload with hold | hnew
        · exact .inl hold
        · exact .inr (List.mem_singleton.mp hnew)
      · exact .inl hload
    -- An older load may be of another window, but it is not the last one.
    rcases hcases with hold | rfl
    · exact ⟨(holder _ (hloads load hold)).1, fun h => absurd h (holder _ (hloads load hold)).2⟩
    · exact ⟨Nat.le_refl _, fun _ => ⟨rfl, rfl⟩⟩
  · intro request hrequest
    exact ⟨(holder _ (hrequests request hrequest)).1, fun h =>
      absurd h (holder _ (hrequests request hrequest)).2⟩
  · intro request hrequest
    exact ⟨(holder _ (hresult request hrequest)).1, fun h =>
      absurd h (holder _ (hresult request hrequest)).2⟩

-- The same for a page that differs from a current one in what is selected.
theorem Current.select (p q : Page) (hp : Current p) (now : Nat) (hloads : q.loads = p.loads)
    (hrequests : q.requests = p.requests) (hresult : q.result = p.result)
    (hstarted : q.started = p.started) (hdrawn : q.drawn = p.drawn) :
    Current (q.loadHistory now) := by
  refine loadHistory_current q now ?_ ?_ ?_ ?_
  · rw [hloads, hstarted]
    exact fun load hload => (hp.loads load hload).1
  · rw [hrequests, hstarted]
    exact fun request hrequest => (hp.requests request hrequest).1
  · rw [hresult, hstarted]
    exact fun request hrequest => (hp.result request hrequest).1
  · unfold AlwaysShown
    rw [hdrawn]
    exact hp.drawn

/-- A load that is still the last one posts the selected window. -/
theorem post_current (p : Page) (hp : Current p) (load : Load) (hload : load ∈ p.loads) :
    Current (p.post load) := by
  refine ⟨fun other hother => hp.loads other (List.mem_of_mem_erase hother), ?_, hp.result,
    hp.drawn⟩
  intro request hrequest
  rcases List.mem_append.mp hrequest with hold | hnew
  · exact hp.requests request hold
  · rw [List.mem_singleton.mp hnew]
    -- Nothing was selected since the load began, so what is read again is the same.
    refine ⟨(hp.loads load hload).1, fun hlast => ?_⟩
    rcases (hp.loads load hload).2 hlast with ⟨hspec, hstop⟩
    simp only [Page.shown, Page.post, hspec, hstop]

theorem receive_current (p : Page) (hp : Current p) (request : Request)
    (hrequest : request ∈ p.requests) (hlast : request.id = p.job → request.load = p.started) :
    Current (p.receive request) := by
  have hrest : ∀ other ∈ p.requests.erase request, other.load ≤ p.started ∧
      (other.load = p.started → other.window = p.shown) :=
    fun other hother => hp.requests other (List.mem_of_mem_erase hother)
  unfold Page.receive
  simp only
  split
  · exact ⟨hp.loads, hrest, hp.result, hp.drawn⟩
  · next hid =>
    refine render_current _ ⟨hp.loads, hrest, ?_, hp.drawn⟩ ?_
    · intro other hother
      rw [← Option.some.inj hother]
      exact hp.requests request hrequest
    · intro other hother
      rw [← Option.some.inj hother]
      exact hlast (not_not.mp hid)

/-! ### Events -/

/-- What an event in step keeps. -/
theorem after_current (p : Page) (hp : Current p) (event : PageEvent) (hstep : InStep p event) :
    Current (p.after event) := by
  cases event with
  | ready now => exact hp.select p _ now rfl rfl rfl rfl rfl
  | viewAp now =>
      simp only [Page.after, InStep] at hstep ⊢
      split
      · next hview =>
        rw [if_pos hview] at hstep
        exact render_current _ ⟨hp.loads, hp.requests, hp.result, hp.drawn⟩ hstep
      · next hview =>
        -- Without an answer the other band is not drawn before its load begins.
        rw [if_neg hview] at hstep
        rw [render_none { p with band := p.band.other } hstep]
        exact hp.select p _ now rfl rfl rfl rfl rfl
  | changeRange hours now => exact hp.select p _ now rfl rfl rfl rfl rfl
  | timeEarlier now => exact hp.select p _ now rfl rfl rfl rfl rfl
  | timeLater now =>
      simp only [Page.after]
      split
      · exact hp
      · exact hp.select p _ now rfl rfl rfl rfl rfl
  | redraw view =>
      exact render_current { p with view } ⟨hp.loads, hp.requests, hp.result, hp.drawn⟩ hstep
  | snapshots number ok =>
      simp only [Page.after]
      split
      · exact hp
      · next load hload =>
        have hrest : ∀ other ∈ p.loads.erase load, other.number ≤ p.started ∧
            (other.number = p.started → other.spec = range p.hours ∧
              other.stop = p.resultStart + (range p.hours).seconds) :=
          fun other hother => hp.loads other (List.mem_of_mem_erase hother)
        split
        · refine ⟨?_, hp.requests, hp.result, hp.drawn⟩
          intro other hother
          rcases List.mem_append.mp hother with hold | hnew
          · exact hrest other hold
          · rw [List.mem_singleton.mp hnew]
            exact hp.loads load (List.mem_of_find?_eq_some hload)
        · exact ⟨hrest, hp.requests, hp.result, hp.drawn⟩
  | context number =>
      simp only [Page.after]
      split
      · exact hp
      · next load hload => exact post_current p hp load (List.mem_of_find?_eq_some hload)
  | answer id =>
      simp only [Page.after]
      split
      · exact hp
      · next request hrequest =>
        exact receive_current p hp request (List.mem_of_find?_eq_some hrequest)
          (hstep request hrequest)
  | error id =>
      exact ⟨hp.loads, fun request hrequest => hp.requests request (List.mem_of_mem_filter hrequest),
        hp.result, hp.drawn⟩

theorem opened_current (view : View) (hours : Hours) (band : Band) (timePage : Nat) :
    Current (Page.opened view hours band timePage) where
  loads := fun _ h => absurd h List.not_mem_nil
  requests := fun _ h => absurd h List.not_mem_nil
  result := fun _ h => absurd h (by simp only [Page.opened, Option.mem_def, reduceCtorEq,
    not_false_eq_true])
  drawn := fun _ h => absurd h List.not_mem_nil

/-- A switch of the band draws an answer that is up to date for the other
    band, whatever else happens. -/
theorem viewAp_mislabelled (p : Page) (hp : Current p) (request : Request)
    (hresult : p.result = some request) (hlast : request.load = p.started)
    (hview : p.view = .network) (now : Nat) : ¬ AlwaysShown (p.after (.viewAp now)) := by
  intro h
  have hdrawn : (request.window, { p with band := p.band.other }.shown) ∈
      (p.after (.viewAp now)).drawn := by
    simp only [Page.after, hview, ne_eq, not_true_eq_false, if_false, Page.loadHistory,
      Page.render, hresult]
    exact List.mem_append_right _ List.mem_cons_self
  have hwindow := (hp.result request hresult).2 hlast
  -- The two windows would have one band.
  have hband : p.band = p.band.other := by
    have heq := h _ hdrawn
    rw [show request.window = p.shown from hwindow] at heq
    exact congrArg Window.band heq
  cases hb : p.band <;> rw [hb] at hband <;> exact absurd hband (by decide)

/-- Everything that is drawn is of the selected window, over every sequence of
    events in step. -/
theorem alwaysShown_of_meets (view : View) (hours : Hours) (band : Band) (timePage : Nat)
    (events : List PageEvent)
    (h : Meets Page.after InStep (Page.opened view hours band timePage) events) :
    AlwaysShown (events.foldl Page.after (Page.opened view hours band timePage)) :=
  (invariant_of_meets Page.after InStep Current (fun p event hp => after_current p hp event) _ events
    (opened_current view hours band timePage) h).drawn

/-- The range is changed while a load is on its way, and the later load posts
    first: the answer of the earlier one is dropped. -/
theorem alwaysShown_overlapping :
    AlwaysShown ([PageEvent.ready 1000000, .changeRange .one 1000005, .snapshots 1 true, .context 1,
      .snapshots 2 true, .context 2, .answer 1, .answer 2, .redraw .network].foldl Page.after
        (Page.opened .network .day .a 0)) :=
  alwaysShown_of_meets .network .day .a 0 _
    (by refine ⟨?_, ?_, ?_, ?_, ?_, ?_, ?_, ?_, ?_, trivial⟩ <;> decide +kernel)

/-- The earlier load posts last, and its day of quarter hours is drawn for the
    hour that is selected. And a switch of the band draws what is there. -/
theorem alwaysShown_overtaken :
    ¬ AlwaysShown ([PageEvent.ready 1000000, .changeRange .one 1000005, .snapshots 2 true,
        .context 2, .snapshots 1 true, .context 1, .answer 2].foldl Page.after
          (Page.opened .network .day .a 0)) ∧
      ¬ AlwaysShown ([PageEvent.ready 1000000, .snapshots 1 true, .context 1, .answer 1,
        .viewAp 1000005].foldl Page.after (Page.opened .network .day .a 0)) := by
  constructor <;> decide +kernel

end Zd1200
