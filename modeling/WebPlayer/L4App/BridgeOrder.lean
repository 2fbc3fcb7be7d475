import Mathlib.Data.Prod.Basic
import WebPlayer.L4App.WorkerBridge

/-!
# What comes through the bridge

The promise of `init` is what keeps the page and the worker in step: nothing
is posted before the worker has said that it is ready, so no request meets a
decoder that is still loading, and requests are answered one by one. `destroy`
ends it from the page's side at once, whatever is still under way.

* `bridge_in_order`: what the callbacks are given is what a decoder alone
  would answer to the calls in their order.
* `ops_find_decoder`: a request meets a decoder that is loaded.
-/
namespace WebPlayer.L4.Worker
open WebPlayer.Core

variable {M D F A S : Type}

/-! ## A decoder alone -/

section
variable (W : Wrapper M D F A S)

/-- What a new decoder comes to, or what it throws. -/
def opens (config : DecoderConfig) (ret : Except String M) : Except String D :=
  match W.init config ret W.new with
  | (.error e, _) => .error e
  | (.ok _, d) =>
    match W.initProtocol d with
    | (.error e, _) => .error e
    | (.ok _, d) => .ok d

/-- Frames and errors. -/
def isAnswer : Response F A S → Bool
  | .frame _ | .audioFrame _ | .error _ => true
  | _ => false

/-- The answers of a decoder that is called directly. -/
def alone (start : Except String D) (ops : List Op) : List (Response F A S) :=
  match start with
  | .error e => [workerError e]
  | .ok d => (serveAll W ops d).1.filter isAnswer

theorem alone_mono (start : Except String D) {ops more : List Op} (h : ops <+: more) :
    alone W start ops <+: alone W start more := by
  obtain ⟨rest, rfl⟩ := h
  cases start with
  | error e => exact List.prefix_refl _
  | ok d =>
    rw [alone, alone, serveAll_append, List.filter_append]
    exact List.prefix_append ..

/-! ## The worker, before it is destroyed -/

/-- The worker has loaded a module so often, has handled these requests, and
this is what it has posted but for statistics. -/
inductive Serves : List (DecoderConfig × Except String M) → List Request → List (Response F A S) → DecodeWorker D → Prop where
  | idle : Serves [] [] [] (.start W)
  | loading (config : DecoderConfig) {w : DecodeWorker D} (hdecoder : w.decoder = some 0) (hnew : w.instances 0 = W.new)
      (hloading : w.loading = [(0, config)]) (hstats : w.statsInterval = false) : Serves [] [.init config] [] w
  | failed (config : DecoderConfig) (ret : Except String M) {w : DecodeWorker D} {e : String} (h : opens W config ret = .error e)
      (hloading : w.loading = []) (hstats : w.statsInterval = false) : Serves [(config, ret)] [.init config] [workerError e] w
  | open (config : DecoderConfig) (ret : Except String M) (ops : List Op) {w : DecodeWorker D} {d : D}
      (h : opens W config ret = .ok d) (hdecoder : w.decoder = some 0) (hinstance : w.instances 0 = (serveAll W ops d).2)
      (hloading : w.loading = []) :
      Serves [(config, ret)] (.init config :: ops.map .op) (.ready :: (serveAll W ops d).1) w

variable {W}

theorem serves_handle {loads : List (DecoderConfig × Except String M)} {handled : List Request} {said : List (Response F A S)}
    {w : DecodeWorker D} (h : Serves W loads handled said w) {request : Request}
    (hnext : (handled = [] ∧ ∃ config, request = .init config) ∨ ((∃ rs, said = .ready :: rs) ∧ ∃ op, request = .op op)) :
    Serves W loads (handled ++ [request]) (said ++ (w.onmessage W request).1) (w.onmessage W request).2 ∧
      ∀ r ∈ (w.onmessage W request).1, isStats r = false := by
  rcases hnext with ⟨hnil, config, rfl⟩ | ⟨⟨rs, hready⟩, op, rfl⟩
  · cases h with
    | idle => exact ⟨.loading config rfl rfl rfl rfl, fun r hr => absurd hr List.not_mem_nil⟩
    | loading => cases hnil
    | failed => cases hnil
    | «open» => cases hnil
  · cases h with
    | idle => cases hready
    | loading => cases hready
    | failed => cases hready
    | @«open» config ret ops w d h hdecoder hinstance hloading =>
      have hanswer : w.onmessage W (.op op) = ((serve W op (serveAll W ops d).2).1,
          w.set 0 (serve W op (serveAll W ops d).2).2) := by
        simp only [DecodeWorker.onmessage, DecodeWorker.handleRequest, hdecoder, hinstance]
      have hone : serveAll W (ops ++ [op]) d = ((serveAll W ops d).1 ++ (serve W op (serveAll W ops d).2).1,
          (serve W op (serveAll W ops d).2).2) := by
        rw [serveAll_append]
        simp [serveAll]
      have hlist : Request.init config :: ops.map Request.op ++ [.op op] = .init config :: (ops ++ [op]).map .op := by simp
      rw [hanswer, hlist]
      constructor
      · have hsaid : Response.ready :: (serveAll W ops d).1 ++ (serve W op (serveAll W ops d).2).1 =
            .ready :: (serveAll W (ops ++ [op]) d).1 := by
          rw [hone]
          rfl
        rw [hsaid]
        refine .open config ret (ops ++ [op]) h hdecoder ?_ hloading
        simp [hone]
      · exact serve_stats W op _

/-- The one that waits is that of the first decoder. -/
theorem serves_waits {loads : List (DecoderConfig × Except String M)} {handled : List Request} {said : List (Response F A S)}
    {w : DecodeWorker D} (h : Serves W loads handled said w) {k i : Nat} {config : DecoderConfig}
    (hk : w.loading[k]? = some (i, config)) : k = 0 ∧ i = 0 ∧ w.loading = [(0, config)] ∧ w.decoder = some 0 ∧
      w.instances 0 = W.new ∧ loads = [] ∧ handled = [.init config] ∧ said = [] ∧ w.statsInterval = false := by
  have hnone : w.loading ≠ [] := by
    intro hnil
    simp [hnil] at hk
  cases h with
  | idle => exact absurd rfl hnone
  | failed config ret h hloading => exact absurd hloading hnone
  | «open» config ret ops h hdecoder hinstance hloading => exact absurd hloading hnone
  | loading config' hdecoder hnew hloading hstats =>
    rw [hloading] at hk
    cases k with
    | succ k => simp at hk
    | zero =>
      cases hk
      exact ⟨rfl, rfl, hloading, hdecoder, hnew, rfl, rfl, rfl, hstats⟩

theorem serves_load {loads : List (DecoderConfig × Except String M)} {handled : List Request} {said : List (Response F A S)}
    {w : DecodeWorker D} (h : Serves W loads handled said w) {k i : Nat} {config : DecoderConfig}
    (hk : w.loading[k]? = some (i, config)) (ret : Except String M) :
    Serves W (loads ++ [(config, ret)]) handled (said ++ (w.resumeInit W k i config ret).1) (w.resumeInit W k i config ret).2 ∧
      ∀ r ∈ (w.resumeInit W k i config ret).1, isStats r = false := by
  obtain ⟨rfl, rfl, hloading, hdecoder, hnew, rfl, rfl, rfl, hstats⟩ := serves_waits h hk
  have herase : w.loading.eraseIdx 0 = [] := by
    rw [hloading]
    rfl
  unfold DecodeWorker.resumeInit
  simp only [hnew]
  rcases hinit : W.init config ret W.new with ⟨r, d⟩
  cases r with
  | error e =>
    have hopens : opens W config ret = .error e := by rw [opens, hinit]
    exact ⟨.failed config ret hopens herase hstats, by simp [workerError, isStats]⟩
  | ok u =>
    simp only [DecodeWorker.set, hdecoder, if_true]
    rcases hproto : W.initProtocol d with ⟨r, d'⟩
    cases r with
    | error e =>
      have hopens : opens W config ret = .error e := by simp only [opens, hinit, hproto]
      exact ⟨.failed config ret hopens herase hstats, by simp [workerError, isStats]⟩
    | ok u =>
      have hopens : opens W config ret = .ok d' := by simp only [opens, hinit, hproto]
      exact ⟨.open config ret [] hopens rfl rfl herase, by simp [isStats]⟩

end

/-! ## The page, before it destroys the bridge -/

/-- All but statistics. -/
def spoken (rs : List (Response F A S)) : List (Response F A S) := rs.filter (!isStats ·)

@[simp] theorem spoken_append (rs rs' : List (Response F A S)) : spoken (rs ++ rs') = spoken rs ++ spoken rs' :=
  List.filter_append ..

theorem spoken_self {rs : List (Response F A S)} (h : ∀ r ∈ rs, isStats r = false) : spoken rs = rs := by
  refine List.filter_eq_self.mpr fun r hr => ?_
  rw [h r hr]
  rfl

/-- There is a callback for it. -/
def hasCallback : Response F A S → Bool
  | .ready | .destroyed => false
  | _ => true

/-- What the page has asked for, by the state of its promise. -/
inductive Page (s : WorkerBridge M D F A S) : Prop where
  | fresh (hpromise : s.initPromise = none) (hmade : s.made = 0) (hstate : s.promises 0 = .pending)
      (hsent : s.handled ++ s.toWorker = []) (haccepted : s.accepted = []) (hawaiting : s.awaiting = [])
      (hhandlers : s.messageHandlers = []) (htimeouts : s.timeouts = []) (hseen : spoken s.seen = [])
  | pending (config : DecoderConfig) (hpromise : s.initPromise = some 0) (hstate : s.promises 0 = .pending)
      (hsent : s.handled ++ s.toWorker = [.init config]) (hawaiting : s.awaiting = s.accepted.map (0, ·))
      (hhandlers : s.messageHandlers = [0]) (hseen : spoken s.seen = [])
  | rejected (config : DecoderConfig) (hpromise : s.initPromise = some 0) (hstate : s.promises 0 = .rejected)
      (hsent : s.handled ++ s.toWorker = [.init config]) (hawaiting : ∀ x ∈ s.awaiting, x.1 = 0)
  | resolved (config : DecoderConfig) (ops : List Op) (hpromise : s.initPromise = some 0) (hstate : s.promises 0 = .resolved)
      (hsent : s.handled ++ s.toWorker = .init config :: ops.map .op)
      (hawaiting : ops.map (0, ·) ++ s.awaiting = s.accepted.map (0, ·)) (hhandlers : s.messageHandlers = [])
      (hseen : ∃ rest, spoken s.seen = .ready :: rest)

/-- Before the page destroys it. -/
structure Live (W : Wrapper M D F A S) (s : WorkerBridge M D F A S) : Prop where
  worker : s.worker = true
  terminations : s.terminations = 0
  callbacks : s.callbacks = true
  delivered : s.delivered = s.seen.filter hasCallback
  serves : Serves W s.loads s.handled (spoken (s.seen ++ s.toPage)) s.thread
  page : Page s

section
variable {W : Wrapper M D F A S} {s s' : WorkerBridge M D F A S}

theorem live_start : Live W (.start W) where
  worker := rfl
  terminations := rfl
  callbacks := rfl
  delivered := rfl
  serves := .idle
  page := .fresh rfl rfl rfl rfl rfl rfl rfl rfl rfl

/-! ### What a step does -/

/-- Calls, reactions and timeouts: the worker, and what it said, stay. -/
structure PageOnly (s s' : WorkerBridge M D F A S) : Prop where
  worker : s'.worker = s.worker
  terminations : s'.terminations = s.terminations
  callbacks : s'.callbacks = s.callbacks
  accepted : s.accepted <+: s'.accepted
  handled : s'.handled = s.handled
  seen : s'.seen = s.seen
  delivered : s'.delivered = s.delivered
  toPage : s'.toPage = s.toPage
  thread : s'.thread = s.thread
  loads : s'.loads = s.loads

theorem PageOnly.refl (s : WorkerBridge M D F A S) : PageOnly s s :=
  ⟨rfl, rfl, rfl, List.prefix_refl _, rfl, rfl, rfl, rfl, rfl, rfl⟩

theorem init_pageOnly (s : WorkerBridge M D F A S) (config : DecoderConfig) : PageOnly s (s.init config) := by
  unfold WorkerBridge.init
  split
  · exact .refl s
  · simp only
    split
    · exact ⟨rfl, rfl, rfl, List.prefix_refl _, rfl, rfl, rfl, rfl, rfl, rfl⟩
    · exact ⟨rfl, rfl, rfl, List.prefix_refl _, rfl, rfl, rfl, rfl, rfl, rfl⟩

theorem call_pageOnly (s : WorkerBridge M D F A S) (op : Op) : PageOnly s (s.call op) := by
  unfold WorkerBridge.call
  split
  · split
    · exact .refl s
    · exact ⟨rfl, rfl, rfl, List.prefix_append .., rfl, rfl, rfl, rfl, rfl, rfl⟩
  · exact .refl s

theorem resume_pageOnly {i : Nat} (h : s.resume i = some s') : PageOnly s s' := by
  unfold WorkerBridge.resume at h
  split at h
  · cases h
  · split at h
    · cases h
    · cases h
      split
      · exact ⟨rfl, rfl, rfl, List.prefix_refl _, rfl, rfl, rfl, rfl, rfl, rfl⟩
      · exact ⟨rfl, rfl, rfl, List.prefix_refl _, rfl, rfl, rfl, rfl, rfl, rfl⟩

/-- What the page does by itself. -/
inductive PageStep (s : WorkerBridge M D F A S) : Event M → WorkerBridge M D F A S → Prop where
  | init (config : DecoderConfig) : PageStep s (.init config) (s.init config)
  | call (op : Op) : PageStep s (.call op) (s.call op)
  | resume {i : Nat} {s' : WorkerBridge M D F A S} (hr : s.resume i = some s') : PageStep s (.resume i) s'
  | timeout {p : Nat} (hp : p ∈ s.timeouts) :
      PageStep s (.timeout p) ({ s with timeouts := s.timeouts.erase p }.settle p .rejected)

/-- And the other steps. -/
inductive BridgeStep (W : Wrapper M D F A S) (s : WorkerBridge M D F A S) : Event M → WorkerBridge M D F A S → Prop where
  | destroy : BridgeStep W s .destroy s.destroy
  | terminate (hterm : s.terminations ≠ 0) : BridgeStep W s .terminate s.terminate
  | receive {r : Response F A S} {rest : List (Response F A S)} (hlist : s.toPage = r :: rest) :
      BridgeStep W s .receive ({ s with toPage := rest }.onmessage r)
  | handle {request : Request} {rest : List Request} (hlist : s.toWorker = request :: rest) :
      BridgeStep W s .handle
        { s with toWorker := rest
                 toPage := s.toPage ++ (s.thread.onmessage W request).1
                 thread := (s.thread.onmessage W request).2
                 handled := s.handled ++ [request] }
  | load {k i : Nat} {config : DecoderConfig} (ret : Except String M) (hk : s.thread.loading[k]? = some (i, config)) :
      BridgeStep W s (.load k ret)
        { s with toPage := s.toPage ++ (s.thread.resumeInit W k i config ret).1
                 thread := (s.thread.resumeInit W k i config ret).2
                 loads := s.loads ++ [(config, ret)] }
  | interval : BridgeStep W s .interval { s with toPage := s.toPage ++ s.thread.onInterval W }

theorem step_cases {e : Event M} (h : WorkerBridge.step W s e = some s') : PageStep s e s' ∨ BridgeStep W s e s' := by
  cases e with
  | init config =>
    cases h
    exact .inl (.init config)
  | call op =>
    cases h
    exact .inl (.call op)
  | resume i => exact .inl (.resume h)
  | timeout p =>
    obtain ⟨hp, hs'⟩ := Option.ite_none_right_eq_some.mp h
    cases hs'
    exact .inl (.timeout hp)
  | destroy =>
    cases h
    exact .inr .destroy
  | terminate =>
    obtain ⟨hterm, hs'⟩ := Option.ite_none_left_eq_some.mp h
    cases hs'
    exact .inr (.terminate hterm)
  | receive =>
    simp only [WorkerBridge.step] at h
    split at h
    · cases h
    · rename_i r rest hlist
      cases h
      exact .inr (.receive hlist)
  | handle =>
    simp only [WorkerBridge.step] at h
    split at h
    · cases h
    · rename_i request rest hlist
      cases h
      exact .inr (.handle hlist)
  | load k ret =>
    simp only [WorkerBridge.step] at h
    split at h
    · cases h
    · rename_i i config hk
      obtain ⟨-, hs'⟩ := Option.ite_none_right_eq_some.mp h
      cases hs'
      exact .inr (.load ret hk)
  | interval =>
    obtain ⟨-, hs'⟩ := Option.ite_none_right_eq_some.mp h
    cases hs'
    exact .inr .interval

theorem PageStep.only {e : Event M} (h : PageStep s e s') : PageOnly s s' := by
  cases h with
  | init config => exact init_pageOnly s config
  | call op => exact call_pageOnly s op
  | resume hr => exact resume_pageOnly hr
  | timeout => exact ⟨rfl, rfl, rfl, List.prefix_refl _, rfl, rfl, rfl, rfl, rfl, rfl⟩

/-! ### The promise and what waits for it -/

theorem page_init (h : Page s) (hworker : s.worker = true) (config : DecoderConfig) : Page (s.init config) := by
  cases hp : s.initPromise with
  | some p =>
    have hsame : s.init config = s := by simp only [WorkerBridge.init, hp]
    rwa [hsame]
  | none =>
    cases h with
    | pending _ hpromise => exact absurd (hp.symm.trans hpromise) (Option.some_ne_none _).symm
    | rejected _ hpromise => exact absurd (hp.symm.trans hpromise) (Option.some_ne_none _).symm
    | resolved _ _ hpromise => exact absurd (hp.symm.trans hpromise) (Option.some_ne_none _).symm
    | fresh hpromise hmade hstate hsent haccepted hawaiting hhandlers htimeouts hseen =>
      simp only [WorkerBridge.init, hp, hworker, hmade, if_true]
      refine .pending config rfl hstate ?_ ?_ ?_ hseen
      · rw [← List.append_assoc, hsent, List.nil_append]
      · rw [hawaiting, haccepted]
        rfl
      · rw [hhandlers]
        rfl

theorem page_call (h : Page s) (hworker : s.worker = true) (op : Op) : Page (s.call op) := by
  rw [WorkerBridge.call, if_pos hworker]
  cases h with
  | fresh hpromise hmade hstate hsent haccepted hawaiting hhandlers htimeouts hseen =>
    simp only [hpromise]
    exact .fresh hpromise hmade hstate hsent haccepted hawaiting hhandlers htimeouts hseen
  | pending config hpromise hstate hsent hawaiting hhandlers hseen =>
    simp only [hpromise]
    refine .pending config rfl hstate hsent ?_ hhandlers hseen
    simp [hawaiting]
  | rejected config hpromise hstate hsent hawaiting =>
    simp only [hpromise]
    refine .rejected config rfl hstate hsent fun x hx => ?_
    rcases List.mem_append.mp hx with hx | hx
    · exact hawaiting x hx
    · rw [List.mem_singleton.mp hx]
  | resolved config ops hpromise hstate hsent hawaiting hhandlers hseen =>
    simp only [hpromise]
    refine .resolved config ops rfl hstate hsent ?_ hhandlers hseen
    simp [← List.append_assoc, hawaiting]

theorem page_resume (h : Page s) (hworker : s.worker = true) {i : Nat} (hr : s.resume i = some s') : Page s' := by
  unfold WorkerBridge.resume at hr
  cases hx : s.awaiting[i]? with
  | none =>
    rw [hx] at hr
    cases hr
  | some x =>
    obtain ⟨p, op⟩ := x
    have hmem : (p, op) ∈ s.awaiting := List.mem_of_getElem? hx
    simp only [hx] at hr
    split at hr
    · cases hr
    · rename_i hno
      obtain ⟨hsettled, hfirst⟩ := not_or.mp hno
      cases h with
      | fresh hpromise hmade hstate hsent haccepted hawaiting =>
        rw [hawaiting] at hmem
        exact absurd hmem List.not_mem_nil
      | pending config hpromise hstate hsent hawaiting =>
        rw [hawaiting] at hmem
        obtain ⟨op', -, heq⟩ := List.mem_map.mp hmem
        cases heq
        exact absurd hstate hsettled
      | rejected config hpromise hstate hsent hawaiting =>
        obtain rfl : p = 0 := hawaiting _ hmem
        rw [hstate, if_neg (by simp)] at hr
        cases hr
        exact .rejected config hpromise hstate hsent fun x hx => hawaiting x (List.mem_of_mem_eraseIdx hx)
      | resolved config ops hpromise hstate hsent hawaiting hhandlers hseen =>
        have hall : ∀ x ∈ s.awaiting, x.1 = 0 := by
          intro x hx
          have : x ∈ s.accepted.map (0, ·) := hawaiting ▸ List.mem_append_right _ hx
          obtain ⟨op', -, rfl⟩ := List.mem_map.mp this
          rfl
        obtain rfl : p = 0 := hall _ hmem
        cases hlist : s.awaiting with
        | nil =>
          rw [hlist] at hmem
          exact absurd hmem List.not_mem_nil
        | cons x rest =>
          have hx0 : x.1 = 0 := hall x (hlist ▸ List.mem_cons_self)
          -- the calls go on in their order
          obtain rfl : i = 0 := by
            cases i with
            | zero => rfl
            | succ i =>
              rw [hlist, List.take_succ_cons, List.map_cons, hx0] at hfirst
              exact absurd List.mem_cons_self hfirst
          rw [hlist] at hx
          cases hx
          rw [hstate, hworker, if_pos ⟨rfl, rfl⟩, hlist] at hr
          cases hr
          refine .resolved config (ops ++ [op]) hpromise hstate ?_ ?_ hhandlers hseen
          · rw [← List.append_assoc, hsent]
            simp
          · rw [← hawaiting, hlist]
            simp

theorem settle_other (s : WorkerBridge M D F A S) {p q : Nat} {st : PromiseState} (h : q ≠ p ∨ s.promises p ≠ .pending) :
    (s.settle p st).promises q = s.promises q := by
  refine if_neg fun hboth => ?_
  rcases h with h | h
  · exact h hboth.1
  · exact h hboth.2

theorem page_timeout (h : Page s) {p : Nat} (hp : p ∈ s.timeouts) :
    Page ({ s with timeouts := s.timeouts.erase p }.settle p .rejected) := by
  cases h with
  | fresh hpromise hmade hstate hsent haccepted hawaiting hhandlers htimeouts =>
    rw [htimeouts] at hp
    exact absurd hp List.not_mem_nil
  | pending config hpromise hstate hsent hawaiting hhandlers hseen =>
    have hall : ∀ x ∈ s.awaiting, x.1 = 0 := by
      intro x hx
      obtain ⟨op, -, rfl⟩ := List.mem_map.mp (hawaiting ▸ hx)
      rfl
    by_cases h0 : p = 0
    · subst h0
      exact .rejected config hpromise (if_pos ⟨rfl, hstate⟩) hsent hall
    · exact .pending config hpromise ((settle_other _ (.inl (Ne.symm h0))).trans hstate) hsent hawaiting hhandlers hseen
  | rejected config hpromise hstate hsent hawaiting =>
    refine .rejected config hpromise ?_ hsent hawaiting
    rw [settle_other _ (or_iff_not_imp_left.mpr fun h0 => ?_)]
    · exact hstate
    · rw [← not_not.mp h0]
      simp [hstate]
  | resolved config ops hpromise hstate hsent hawaiting hhandlers hseen =>
    refine .resolved config ops hpromise ?_ hsent hawaiting hhandlers hseen
    rw [settle_other _ (or_iff_not_imp_left.mpr fun h0 => ?_)]
    · exact hstate
    · rw [← not_not.mp h0]
      simp [hstate]

/-- What comes first when nothing has been said is `ready` or an error. -/
theorem serves_first {loads : List (DecoderConfig × Except String M)} {handled : List Request} {config : DecoderConfig} {r : Response F A S} {rest : List (Response F A S)}
    {w : DecodeWorker D} (h : Serves W loads handled (r :: rest) w) (hhandled : ∃ later, handled ++ later = [.init config]) :
    r = .ready ∨ ∃ e, r = .error e := by
  cases h with
  | failed => exact .inr ⟨_, rfl⟩
  | «open» => exact .inl rfl

theorem handleWorkerMessage_eq (s : WorkerBridge M D F A S) (r : Response F A S) :
    s.handleWorkerMessage r =
      { s with seen := s.seen ++ [r]
               delivered := s.delivered ++ if s.callbacks = true then [r].filter hasCallback else [] } := by
  cases hcallbacks : s.callbacks with
  | true =>
    cases r with
    | ready => simp [WorkerBridge.handleWorkerMessage, hcallbacks, hasCallback]
    | destroyed => simp [WorkerBridge.handleWorkerMessage, hcallbacks, hasCallback]
    | _ =>
      simp only [WorkerBridge.handleWorkerMessage, hcallbacks, if_true]
      rfl
  | false => cases r <;> simp [WorkerBridge.handleWorkerMessage, hcallbacks]

theorem spoken_singleton (r : Response F A S) : spoken [r] = if isStats r then [] else [r] := by
  cases r <;> rfl

theorem page_hears (h : Page s) {r : Response F A S} {delivered : List (Response F A S)}
    (hr : isStats r = true ∨ s.promises 0 ≠ .pending) :
    Page { s with seen := s.seen ++ [r], delivered := delivered } := by
  cases h with
  | fresh hpromise hmade hstate hsent haccepted hawaiting hhandlers htimeouts hseen =>
    have hstats := hr.resolve_right (not_not_intro hstate)
    refine .fresh hpromise hmade hstate hsent haccepted hawaiting hhandlers htimeouts ?_
    simp [spoken_singleton, hstats, hseen]
  | pending config hpromise hstate hsent hawaiting hhandlers hseen =>
    have hstats := hr.resolve_right (not_not_intro hstate)
    refine .pending config hpromise hstate hsent hawaiting hhandlers ?_
    simp [spoken_singleton, hstats, hseen]
  | rejected config hpromise hstate hsent hawaiting => exact .rejected config hpromise hstate hsent hawaiting
  | resolved config ops hpromise hstate hsent hawaiting hhandlers hseen =>
    obtain ⟨rest, hseen⟩ := hseen
    exact .resolved config ops hpromise hstate hsent hawaiting hhandlers ⟨rest ++ spoken [r], by simp [hseen]⟩

theorem page_settleAll (h : Page s) (hstate : s.promises 0 ≠ .pending) (st : PromiseState) : Page (s.settleAll st) := by
  have hsame : (s.settleAll st).promises 0 = s.promises 0 := if_neg fun hboth => hstate hboth.2
  cases h with
  | fresh _ _ hpending => exact absurd hpending hstate
  | pending _ _ hpending => exact absurd hpending hstate
  | rejected config hpromise hrejected hsent hawaiting =>
    exact .rejected config hpromise (hsame.trans hrejected) hsent hawaiting
  | resolved config ops hpromise hresolved hsent hawaiting hhandlers hseen =>
    exact .resolved config ops hpromise (hsame.trans hresolved) hsent hawaiting rfl hseen

/-- A message that settles the promise, when it is the first. -/
theorem page_settles {config : DecoderConfig} (hpromise : s.initPromise = some 0) (hstate : s.promises 0 = .pending)
    (hsent : s.handled ++ s.toWorker = [.init config]) (hawaiting : s.awaiting = s.accepted.map (0, ·))
    (hhandlers : s.messageHandlers = [0]) (hseen : spoken s.seen = []) (delivered : List (Response F A S)) :
    Page (WorkerBridge.settleAll { s with seen := s.seen ++ [.ready], delivered := delivered } .resolved) ∧
      ∀ e, Page (WorkerBridge.settleAll { s with seen := s.seen ++ [.error e], delivered := delivered } .rejected) := by
  have hmem : 0 ∈ s.messageHandlers ∧ s.promises 0 = .pending := ⟨hhandlers ▸ List.mem_singleton_self 0, hstate⟩
  constructor
  · refine .resolved config [] hpromise (if_pos hmem) hsent hawaiting rfl ⟨[], ?_⟩
    show spoken (s.seen ++ [.ready]) = _
    rw [spoken_append, hseen]
    rfl
  · intro e
    refine .rejected config hpromise (if_pos hmem) hsent fun x hx => ?_
    obtain ⟨op, -, rfl⟩ := List.mem_map.mp (hawaiting ▸ hx)
    rfl

theorem page_onmessage (h : Page s) {r : Response F A S} {rest : List (Response F A S)} {w : DecodeWorker D}
    (hserves : Serves W s.loads s.handled (spoken (s.seen ++ r :: rest)) w) : Page (s.onmessage r) := by
  have hheard := handleWorkerMessage_eq s r
  by_cases hpending : s.promises 0 = .pending
  · by_cases hstats : isStats r = true
    · have hsame : s.onmessage r = s.handleWorkerMessage r := by
        cases r with
        | stats => rfl
        | _ => cases hstats
      rw [hsame, hheard]
      exact page_hears h (.inl hstats)
    · -- the first thing that is said
      have hsaid : ∀ {rs}, spoken s.seen = rs → spoken (s.seen ++ r :: rest) = rs ++ r :: spoken rest := by
        intro rs hseen
        rw [spoken_append, hseen, ← List.singleton_append, spoken_append, spoken_singleton, if_neg hstats]
        rfl
      cases h with
      | fresh hpromise hmade hstate hsent haccepted hawaiting hhandlers htimeouts hseen =>
        rw [hsaid hseen, (List.append_eq_nil_iff.mp hsent).1] at hserves
        generalize s.loads = loads at hserves
        cases hserves
      | pending config hpromise hstate hsent hawaiting hhandlers hseen =>
        rw [hsaid hseen] at hserves
        obtain ⟨hready, herror⟩ := page_settles hpromise hstate hsent hawaiting hhandlers hseen
          (s.delivered ++ if s.callbacks = true then [r].filter hasCallback else [])
        rcases serves_first hserves ⟨_, hsent⟩ with rfl | ⟨e, rfl⟩
        · rw [WorkerBridge.onmessage, hheard]
          exact hready
        · rw [WorkerBridge.onmessage, hheard]
          exact herror e
      | rejected _ _ hstate => cases hpending.symm.trans hstate
      | resolved _ _ _ hstate => cases hpending.symm.trans hstate
  · have hhears : Page (s.handleWorkerMessage r) := by
      rw [hheard]
      exact page_hears h (.inr hpending)
    have hstate : (s.handleWorkerMessage r).promises 0 ≠ .pending := by
      rw [hheard]
      exact hpending
    cases r with
    | ready => exact page_settleAll hhears hstate _
    | error => exact page_settleAll hhears hstate _
    | _ => exact hhears

/-! ### Every step -/

/-- `s'` has heard `r`, and given it to a callback if there is one. -/
structure Hears (s : WorkerBridge M D F A S) (r : Response F A S) (s' : WorkerBridge M D F A S) : Prop where
  worker : s'.worker = s.worker
  terminations : s'.terminations = s.terminations
  callbacks : s'.callbacks = s.callbacks
  accepted : s'.accepted = s.accepted
  handled : s'.handled = s.handled
  seen : s'.seen = s.seen ++ [r]
  delivered : s'.delivered = s.delivered ++ if s.callbacks = true then [r].filter hasCallback else []
  toPage : s'.toPage = s.toPage
  thread : s'.thread = s.thread
  loads : s'.loads = s.loads

theorem onmessage_hears (s : WorkerBridge M D F A S) (r : Response F A S) : Hears s r (s.onmessage r) := by
  have hmessage : s.onmessage r = s.handleWorkerMessage r ∨ ∃ st, s.onmessage r = (s.handleWorkerMessage r).settleAll st := by
    cases r with
    | ready => exact .inr ⟨.resolved, rfl⟩
    | error e => exact .inr ⟨.rejected, rfl⟩
    | _ => exact .inl rfl
  rw [handleWorkerMessage_eq s r] at hmessage
  rcases hmessage with h | ⟨st, h⟩
  · rw [h]
    exact ⟨rfl, rfl, rfl, rfl, rfl, rfl, rfl, rfl, rfl, rfl⟩
  · rw [h]
    exact ⟨rfl, rfl, rfl, rfl, rfl, rfl, rfl, rfl, rfl, rfl⟩

/-- The page goes by these fields. -/
theorem Page.congr (h : Page s) (hpromise : s'.initPromise = s.initPromise) (hmade : s'.made = s.made)
    (hstate : s'.promises 0 = s.promises 0) (hsent : s'.handled ++ s'.toWorker = s.handled ++ s.toWorker)
    (haccepted : s'.accepted = s.accepted) (hawaiting : s'.awaiting = s.awaiting)
    (hhandlers : s'.messageHandlers = s.messageHandlers) (htimeouts : s'.timeouts = s.timeouts) (hseen : s'.seen = s.seen) :
    Page s' := by
  cases h with
  | fresh hnone hzero hpending hnothing hno hempty hnoHandlers hnoTimeouts hsilent =>
    exact .fresh (hpromise.trans hnone) (hmade.trans hzero) (hstate.trans hpending) (hsent.trans hnothing)
      (haccepted.trans hno) (hawaiting.trans hempty) (hhandlers.trans hnoHandlers) (htimeouts.trans hnoTimeouts)
      (hseen ▸ hsilent)
  | pending config hsome hpending hasked hall hone hsilent =>
    exact .pending config (hpromise.trans hsome) (hstate.trans hpending) (hsent.trans hasked)
      (hawaiting.trans (haccepted ▸ hall)) (hhandlers.trans hone) (hseen ▸ hsilent)
  | rejected config hsome hrejected hasked hall =>
    exact .rejected config (hpromise.trans hsome) (hstate.trans hrejected) (hsent.trans hasked) (hawaiting ▸ hall)
  | resolved config ops hsome hresolved hasked hall hnoHandlers hready =>
    exact .resolved config ops (hpromise.trans hsome) (hstate.trans hresolved) (hsent.trans hasked)
      (hawaiting ▸ haccepted ▸ hall) (hhandlers.trans hnoHandlers) (hseen ▸ hready)

/-- The next request is one that the worker is ready for. -/
theorem page_next (h : Page s) {request : Request} {rest : List Request} (hlist : s.toWorker = request :: rest)
    {rs : List (Response F A S)} (hserves : Serves W s.loads s.handled (spoken s.seen ++ rs) s.thread) :
    (s.handled = [] ∧ ∃ config, request = .init config) ∨
      ((∃ more, spoken s.seen ++ rs = .ready :: more) ∧ ∃ op, request = .op op) := by
  have hfirst : ∀ {config}, s.handled ++ s.toWorker = [.init config] → s.handled = [] ∧ ∃ config, request = .init config := by
    intro config hsent
    rw [hlist] at hsent
    cases hh : s.handled with
    | nil =>
      rw [hh] at hsent
      cases hsent
      exact ⟨rfl, config, rfl⟩
    | cons x xs => simp [hh] at hsent
  cases h with
  | fresh _ _ _ hsent => simp [hlist] at hsent
  | pending config _ _ hsent => exact .inl (hfirst hsent)
  | rejected config _ _ hsent => exact .inl (hfirst hsent)
  | resolved config ops _ _ hsent _ _ hseen =>
    obtain ⟨more, hseen⟩ := hseen
    rw [hseen] at hserves ⊢
    refine .inr ⟨⟨_, rfl⟩, ?_⟩
    have hne : s.handled ≠ [] := by
      intro hnil
      rw [hnil] at hserves
      generalize s.loads = loads at hserves
      cases hserves
    cases hh : s.handled with
    | nil => exact absurd hh hne
    | cons x xs =>
      rw [hh, hlist, List.cons_append] at hsent
      have hmem : request ∈ ops.map Request.op := (List.cons.inj hsent).2 ▸ List.mem_append_right _ List.mem_cons_self
      obtain ⟨op, -, rfl⟩ := List.mem_map.mp hmem
      exact ⟨op, rfl⟩

theorem PageStep.page {e : Event M} (h : PageStep s e s') (hworker : s.worker = true) (hpage : Page s) : Page s' := by
  cases h with
  | init config => exact page_init hpage hworker config
  | call op => exact page_call hpage hworker op
  | resume hr => exact page_resume hpage hworker hr
  | timeout hp => exact page_timeout hpage hp

theorem Live.page_step {e : Event M} (h : Live W s) (hs : PageStep s e s') : Live W s' where
  worker := hs.only.worker.trans h.worker
  terminations := hs.only.terminations.trans h.terminations
  callbacks := hs.only.callbacks.trans h.callbacks
  delivered := by
    rw [hs.only.delivered, hs.only.seen]
    exact h.delivered
  serves := by
    rw [hs.only.loads, hs.only.handled, hs.only.seen, hs.only.toPage, hs.only.thread]
    exact h.serves
  page := hs.page h.worker h.page

theorem Live.receive (h : Live W s) {r : Response F A S} {rest : List (Response F A S)} (hlist : s.toPage = r :: rest) :
    Live W ({ s with toPage := rest }.onmessage r) := by
  obtain ⟨hworker, hterm, hcallbacks, hdelivered, hserves, hpage⟩ := h
  rw [hlist] at hserves
  have hheard := onmessage_hears { s with toPage := rest } r
  refine ⟨hheard.worker.trans hworker, hheard.terminations.trans hterm, hheard.callbacks.trans hcallbacks, ?_, ?_, ?_⟩
  · rw [hheard.delivered, hheard.seen, List.filter_append, ← hdelivered, if_pos hcallbacks]
  · rw [hheard.loads, hheard.handled, hheard.seen, hheard.toPage, hheard.thread, List.append_assoc]
    exact hserves
  · have hp : Page { s with toPage := rest } := hpage.congr rfl rfl rfl rfl rfl rfl rfl rfl rfl
    exact page_onmessage hp hserves

/-- The worker says more, and the page has not heard it yet. -/
theorem Live.says (h : Live W s) {handled toWorker : List Request} {said : List (Response F A S)} {w : DecodeWorker D}
    {loads : List (DecoderConfig × Except String M)} (hsent : handled ++ toWorker = s.handled ++ s.toWorker)
    (hserves : Serves W loads handled (spoken (s.seen ++ s.toPage) ++ spoken said) w) :
    Live W { s with toWorker := toWorker, toPage := s.toPage ++ said, thread := w, handled := handled, loads := loads } where
  worker := h.worker
  terminations := h.terminations
  callbacks := h.callbacks
  delivered := h.delivered
  serves := by
    rw [← List.append_assoc, spoken_append]
    exact hserves
  page := h.page.congr rfl rfl rfl hsent rfl rfl rfl rfl rfl

theorem live_step {e : Event M} (h : Live W s) (hs : WorkerBridge.step W s e = some s') : Live W s' ∨ s' = s.destroy := by
  rcases step_cases hs with hpage | hbridge
  · exact .inl (h.page_step hpage)
  · cases hbridge with
    | destroy => exact .inr rfl
    | terminate hterm => exact absurd h.terminations hterm
    | receive hlist => exact .inl (h.receive hlist)
    | @handle request rest hlist =>
      left
      have hserves := h.serves
      rw [spoken_append] at hserves
      obtain ⟨hnext, hstats⟩ := serves_handle hserves (page_next h.page hlist hserves)
      have hsent : s.handled ++ [request] ++ rest = s.handled ++ s.toWorker := by rw [hlist]; simp
      refine h.says hsent ?_
      rw [spoken_append, spoken_self hstats]
      exact hnext
    | load ret hk =>
      left
      obtain ⟨hnext, hstats⟩ := serves_load h.serves hk ret
      refine h.says rfl ?_
      rw [spoken_self hstats]
      exact hnext
    | interval =>
      left
      have hstats : spoken (s.thread.onInterval W) = [] := by
        unfold DecodeWorker.onInterval
        split <;> rfl
      refine h.says rfl ?_
      rw [hstats, List.append_nil]
      exact h.serves

/-! ## Behind `destroy` -/

theorem destroy_silent (s : WorkerBridge M D F A S) : s.destroy.callbacks = false ∧ s.destroy.delivered = s.delivered ∧
    s.destroy.accepted = s.accepted ∧ s.destroy.loads = s.loads ∧ s.destroy.thread = s.thread := by
  unfold WorkerBridge.destroy
  simp only
  split
  · exact ⟨rfl, rfl, rfl, rfl, rfl⟩
  · exact ⟨rfl, rfl, rfl, rfl, rfl⟩

/-- No callback is called, and the records only grow. -/
theorem silent_step {e : Event M} (h : s.callbacks = false) (hs : WorkerBridge.step W s e = some s') :
    s'.callbacks = false ∧ s'.delivered = s.delivered ∧ s.accepted <+: s'.accepted ∧ s.loads <+: s'.loads := by
  rcases step_cases hs with hpage | hbridge
  · have honly := hpage.only
    exact ⟨honly.callbacks.trans h, honly.delivered, honly.accepted, honly.loads ▸ List.prefix_refl _⟩
  · cases hbridge with
    | destroy =>
      obtain ⟨hcallbacks, hdelivered, haccepted, hloads, -⟩ := destroy_silent s
      exact ⟨hcallbacks, hdelivered, haccepted ▸ List.prefix_refl _, hloads ▸ List.prefix_refl _⟩
    | @receive r rest hlist =>
      have hheard := onmessage_hears { s with toPage := rest } r
      have hnone : s.delivered ++ (if s.callbacks = true then [r].filter hasCallback else []) = s.delivered := by
        rw [h]
        exact List.append_nil _
      rw [hheard.accepted, hheard.loads]
      exact ⟨hheard.callbacks.trans h, hheard.delivered.trans hnone, List.prefix_refl _, List.prefix_refl _⟩
    | load => exact ⟨h, rfl, List.prefix_refl _, List.prefix_append ..⟩
    | _ => exact ⟨h, rfl, List.prefix_refl _, List.prefix_refl _⟩

theorem silent_run {es : List (Event M)} (h : s.callbacks = false) (hrun : (bridge W).Run s es s') :
    s'.delivered = s.delivered := by
  induction hrun with
  | nil => rfl
  | cons hstep _ ih =>
    obtain ⟨hcallbacks, hdelivered, -⟩ := silent_step h hstep
    exact (ih hcallbacks).trans hdelivered

/-! ## What is delivered -/

/-- Open, with nothing under way. -/
structure Idle (s : WorkerBridge M D F A S) : Prop where
  callbacks : s.callbacks = true
  promise : ∃ p, s.initPromise = some p ∧ s.promises p = .resolved
  awaiting : s.awaiting = []
  toWorker : s.toWorker = []
  toPage : s.toPage = []

/-- What the callbacks are due: what a decoder alone, opened with the module
that came first, answers to the accepted calls. -/
def due (W : Wrapper M D F A S) (s : WorkerBridge M D F A S) : List (Response F A S) :=
  match s.loads with
  | [] => []
  | (config, ret) :: _ => alone W (opens W config ret) s.accepted

theorem due_cons {config : DecoderConfig} {ret : Except String M} {more : List (DecoderConfig × Except String M)}
    (h : s.loads = (config, ret) :: more) : due W s = alone W (opens W config ret) s.accepted := by
  unfold due
  rw [h]

theorem due_mono (haccepted : s.accepted <+: s'.accepted) (hloads : s.loads <+: s'.loads) : due W s <+: due W s' := by
  cases hfirst : s.loads with
  | nil =>
    have hnothing : due W s = [] := by rw [due, hfirst]
    rw [hnothing]
    exact List.nil_prefix
  | cons x xs =>
    obtain ⟨more, hmore⟩ := hloads
    rw [hfirst, List.cons_append] at hmore
    rw [due_cons hfirst, due_cons hmore.symm]
    exact alone_mono W _ haccepted

structure InOrder (W : Wrapper M D F A S) (s : WorkerBridge M D F A S) : Prop where
  delivered : s.delivered.filter isAnswer <+: due W s
  whole : Idle s → s.delivered.filter isAnswer = due W s
  silent : ∀ es s', (bridge W).Run s (.destroy :: es) s' → s'.delivered = s.delivered

theorem answers_spoken (rs : List (Response F A S)) : (spoken rs).filter isAnswer = rs.filter isAnswer := by
  rw [spoken, List.filter_filter]
  apply List.filter_congr
  intro r _
  cases r <;> rfl

theorem answers_delivered (rs : List (Response F A S)) : (rs.filter hasCallback).filter isAnswer = rs.filter isAnswer := by
  rw [List.filter_filter]
  apply List.filter_congr
  intro r _
  cases r <;> rfl

theorem op_injective : Function.Injective Request.op := by
  intro op op' heq
  cases heq
  rfl

theorem prefix_of_map {α β : Type} {f : α → β} (hf : Function.Injective f) {xs ys : List α} (h : xs.map f <+: ys.map f) :
    xs <+: ys := by
  obtain ⟨zs, hzs, heq⟩ := List.prefix_map_iff.mp h
  rwa [List.map_injective_iff.mpr hf heq]

/-- Idle, the page has been told that the worker is ready, and has sent what it
accepted. -/
theorem Page.idle (h : Page s) (hi : Idle s) : (∃ more, spoken s.seen = .ready :: more) ∧
    ∃ config, s.handled = .init config :: s.accepted.map .op := by
  obtain ⟨p, hp, hresolved⟩ := hi.promise
  cases h with
  | fresh hnone => cases hnone.symm.trans hp
  | pending config hsome hpending =>
    cases hsome.symm.trans hp
    cases hpending.symm.trans hresolved
  | rejected config hsome hrejected =>
    cases hsome.symm.trans hp
    cases hrejected.symm.trans hresolved
  | resolved config ops hsome _ hsent hall _ hready =>
    rw [hi.awaiting, List.append_nil] at hall
    rw [hi.toWorker, List.append_nil] at hsent
    have hops : ops = s.accepted := List.map_injective_iff.mpr (Prod.mk_right_injective 0) hall
    exact ⟨hready, config, hops ▸ hsent⟩

/-- The worker handles what was accepted, in that order. -/
theorem Page.handled_accepted (h : Page s) {config : DecoderConfig} {ops : List Op}
    (hhandled : s.handled = .init config :: ops.map .op) : ops <+: s.accepted := by
  have hfew : ∀ {config'}, s.handled ++ s.toWorker = [.init config'] → ops <+: s.accepted := by
    intro config' hsent
    rw [hhandled, List.cons_append] at hsent
    have hnil := (List.append_eq_nil_iff.mp (List.cons.inj hsent).2).1
    rw [List.map_eq_nil_iff.mp hnil]
    exact List.nil_prefix
  cases h with
  | fresh _ _ _ hsent =>
    rw [hhandled] at hsent
    cases hsent
  | pending config _ _ hsent => exact hfew hsent
  | rejected config _ _ hsent => exact hfew hsent
  | resolved config' ops' _ _ hsent hall =>
    rw [hhandled, List.cons_append] at hsent
    have hpre : ops <+: ops' := prefix_of_map op_injective ⟨_, (List.cons.inj hsent).2⟩
    exact hpre.trans (prefix_of_map (Prod.mk_right_injective 0) ⟨_, hall⟩)

theorem Live.delivers (h : Live W s) : s.delivered.filter isAnswer <+: due W s ∧
    (Idle s → s.delivered.filter isAnswer = due W s) := by
  obtain ⟨-, -, -, hdelivered, hserves, hpage⟩ := h
  have hanswers : s.delivered.filter isAnswer = (spoken s.seen).filter isAnswer := by
    rw [hdelivered, answers_delivered, answers_spoken]
  have hpre : (spoken s.seen).filter isAnswer <+: (spoken (s.seen ++ s.toPage)).filter isAnswer := by
    rw [spoken_append, List.filter_append]
    exact List.prefix_append ..
  -- in the idle state everything was said, and asked for
  have hidle : Idle s → (spoken s.seen = spoken (s.seen ++ s.toPage)) ∧
      (∃ more, spoken s.seen = .ready :: more) ∧ ∃ config, s.handled = .init config :: s.accepted.map .op :=
    fun hi => ⟨by rw [hi.toPage, List.append_nil], hpage.idle hi⟩
  rw [spoken_append] at hidle hpre
  rw [spoken_append] at hserves
  generalize hsaid : spoken s.seen ++ spoken s.toPage = said at hserves hpre hidle
  generalize hhandled : s.handled = handled at hserves hidle
  generalize hloads : s.loads = loads at hserves
  generalize s.thread = w at hserves
  have hwhole : said.filter isAnswer <+: due W s → (Idle s → said.filter isAnswer = due W s) →
      s.delivered.filter isAnswer <+: due W s ∧ (Idle s → s.delivered.filter isAnswer = due W s) := by
    intro hsaid' heq
    rw [hanswers]
    exact ⟨hpre.trans hsaid', fun hi => by rw [(hidle hi).1, heq hi]⟩
  cases hserves with
  | idle =>
    refine hwhole List.nil_prefix fun hi => ?_
    obtain ⟨-, -, config, hno⟩ := hidle hi
    cases hno
  | loading =>
    refine hwhole List.nil_prefix fun hi => ?_
    obtain ⟨hsame, ⟨more, hready⟩, -⟩ := hidle hi
    rw [hready] at hsame
    cases hsame
  | @failed config ret w e hopens =>
    have hdue : due W s = [workerError e] := by rw [due_cons hloads, hopens, alone]
    refine hwhole ?_ fun _ => ?_
    · rw [hdue]
      exact List.prefix_refl _
    · rw [hdue]
      rfl
  | @«open» config ret ops w d hopens =>
    have hdue : due W s = alone W (.ok d) s.accepted := by rw [due_cons hloads, hopens]
    have hfilter : (Response.ready :: (serveAll W ops d).1).filter isAnswer = alone W (.ok d) ops := rfl
    have hops : ops <+: s.accepted := hpage.handled_accepted hhandled
    rw [hdue, hfilter] at hwhole
    rw [hdue]
    refine hwhole (alone_mono W _ hops) fun hi => ?_
    obtain ⟨-, -, config', heq⟩ := hidle hi
    rw [List.map_injective_iff.mpr op_injective (List.cons.inj heq).2]

/-- Before `destroy`, or silent since. -/
theorem reachable_bridge (h : (bridge W).Reachable s) :
    Live W s ∨ (s.callbacks = false ∧ s.delivered.filter isAnswer <+: due W s) := by
  have hinv : (bridge W).Inductive fun s => Live W s ∨ (s.callbacks = false ∧ s.delivered.filter isAnswer <+: due W s) := by
    constructor
    · intro s hs
      rw [hs]
      exact .inl live_start
    · intro s e s' hs hstep
      rcases hs with hlive | ⟨hcallbacks, hpre⟩
      · rcases live_step hlive hstep with hlive' | rfl
        · exact .inl hlive'
        · obtain ⟨hcallbacks, hdelivered, haccepted, hloads, -⟩ := destroy_silent s
          refine .inr ⟨hcallbacks, ?_⟩
          rw [hdelivered]
          exact hlive.delivers.1.trans (due_mono (haccepted ▸ List.prefix_refl _) (hloads ▸ List.prefix_refl _))
      · obtain ⟨hcallbacks', hdelivered, haccepted, hloads⟩ := silent_step hcallbacks hstep
        refine .inr ⟨hcallbacks', ?_⟩
        rw [hdelivered]
        exact hpre.trans (due_mono haccepted hloads)
  exact hinv.reachable h

/-- **Requests find a decoder.** Before `destroy`, the worker takes a request
for a decoder only when no handler is suspended; its decoder is then the one
that was opened with the only module that was loaded, as the requests before
have left it. -/
theorem ops_find_decoder (h : (bridge W).Reachable s) (hcallbacks : s.callbacks = true) {op : Op} {rest : List Request}
    (hnext : s.toWorker = .op op :: rest) : s.thread.loading = [] ∧ ∃ config ret ops d j, s.loads = [(config, ret)] ∧
      opens W config ret = .ok d ∧ s.handled = .init config :: ops.map .op ∧ s.thread.decoder = some j ∧
      s.thread.instances j = (serveAll W ops d).2 := by
  rcases reachable_bridge h with hlive | ⟨hsilent, -⟩
  · obtain ⟨-, -, -, -, hserves, hpage⟩ := hlive
    rw [spoken_append] at hserves
    rcases page_next hpage hnext hserves with ⟨-, config, hno⟩ | ⟨⟨more, hready⟩, -⟩
    · cases hno
    · rw [hready] at hserves
      generalize s.handled = handled at hserves ⊢
      generalize s.loads = loads at hserves ⊢
      generalize s.thread = w at hserves ⊢
      cases hserves with
      | «open» config ret ops hopens hdecoder hinstance hloading =>
        exact ⟨hloading, config, ret, ops, _, 0, rfl, hopens, rfl, hdecoder, hinstance⟩
  · cases hsilent.symm.trans hcallbacks

end

/-! ## A run -/

theorem reachable_events {W : Wrapper M D F A S} {es : List (Event M)} {s : WorkerBridge M D F A S}
    (h : es.foldlM (WorkerBridge.step W) (.start W) = some s) : (bridge W).Reachable s :=
  ⟨.start W, es, rfl, Lts.run_ofFn h⟩

/-- Every message is a video frame, and its own picture; one without bytes is
refused. -/
def echo : Wrapper Nat Nat Bytes Bytes Unit where
  new := 0
  init _ ret n :=
    match ret with
    | .error e => (.error e, n)
    | .ok m => (.ok (), m)
  initProtocol n := (.ok (), n)
  initAudio _ n := (.ok (), n)
  parseFrame data n := (.ok (some { status := .COMPLETE, msgType := 1, timestamp := 0, payload := data }), n + 1)
  decode data _ n := if data = [] then (.error "no data", n) else (.ok (some data), n)
  decodeAudio _ _ n := (.ok none, n)
  flush n := (.ok [], n)
  destroy _ := 0
  getStats _ := ()

/-- A frame, one that is refused, and another, which is still under way. -/
def echoRun : List (Event Nat) :=
  [.init ⟨"h264", none⟩, .call (.decode [7] none), .handle, .call (.decode [] none), .load 0 (.ok 5), .receive, .resume 0, .handle,
    .call (.decode [8] none), .resume 0, .receive, .handle, .resume 0, .receive]

def echoed : WorkerBridge Nat Nat Bytes Bytes Unit := (echoRun.foldlM (WorkerBridge.step echo) (.start echo)).getD (.start echo)

/-- Nothing is under way any more. -/
def restedRun : List (Event Nat) := echoRun ++ [.handle, .receive]

def rested : WorkerBridge Nat Nat Bytes Bytes Unit := (restedRun.foldlM (WorkerBridge.step echo) (.start echo)).getD (.start echo)

theorem ops_find_decoder_echo : echoed.thread.loading = [] ∧ ∃ config ret ops d j, echoed.loads = [(config, ret)] ∧
    opens echo config ret = .ok d ∧ echoed.handled = .init config :: ops.map .op ∧ echoed.thread.decoder = some j ∧
    echoed.thread.instances j = (serveAll echo ops d).2 := by
  have hrun : echoRun.foldlM (WorkerBridge.step echo) (.start echo) = some echoed := rfl
  have hnext : echoed.toWorker = [.op (.decode [8] none)] := rfl
  exact ops_find_decoder (reachable_events hrun) rfl hnext

example : rested.delivered = [.frame [7], .error "Worker error: no data", .frame [8]] := rfl

end WebPlayer.L4.Worker
