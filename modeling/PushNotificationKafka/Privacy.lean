import PushNotificationKafka.Sessions
import PushNotificationKafka.Visibility

/-! What `keyword_prefix` and `send_flags` keep back, in whole runs. Two runs of which the
same gets through make the same calls of librdkafka, byte for byte: what is kept back shows
neither in a message nor in the topics, the order or the number of messages. -/
namespace PushNotificationKafka
open Bytes Transition

/-- Events of which the same gets through. An event of which nothing gets through may be
missing on one side; a list of keywords that shows none of them may not. -/
inductive SameShown (renderCtx : RenderContext) : List TxnEvent → List TxnEvent → Prop where
  | nil : SameShown renderCtx [] []
  | same (event : TxnEvent) : SameShown renderCtx events events' →
      SameShown renderCtx (event :: events) (event :: events')
  | alike : event.name = event'.name → event.change = some change → event'.change = some change' →
      Alike renderCtx change change' → (change.keywords.getD [] = [] ↔ change'.keywords.getD [] = []) →
      (change.keywordsOld.getD [] = [] ↔ change'.keywordsOld.getD [] = []) →
      SameShown renderCtx events events' → SameShown renderCtx (event :: events) (event' :: events')
  | hidden : event.change = some change → change.Suppressed renderCtx → SameShown renderCtx events events' →
      SameShown renderCtx (event :: events) events'
  | hidden' : event.change = some change → change.Suppressed renderCtx → SameShown renderCtx events events' →
      SameShown renderCtx events (event :: events')

theorem renderMsg_suppressed (changed : event.change = some change) (hidden : change.Suppressed renderCtx) :
    renderMsg dovecot dtxn renderCtx msg event = none := by
  rw [renderMsg_change changed]
  exact (change.write_none ..).mpr hidden

theorem renderMsg_alike (dovecot : Dovecot) (dtxn : DriverTxn) (msg : TxnMsg)
    (named : event.name = event'.name) (changed : event.change = some change)
    (changed' : event'.change = some change') (alike : Alike renderCtx change change')
    (keywords : change.keywords.getD [] = [] ↔ change'.keywords.getD [] = [])
    (keywordsOld : change.keywordsOld.getD [] = [] ↔ change'.keywordsOld.getD [] = []) :
    renderMsg dovecot dtxn renderCtx msg event = renderMsg dovecot dtxn renderCtx msg event' := by
  by_cases hidden : change.Suppressed renderCtx
  · have hidden' := (alike.suppressed dovecot).mp hidden
    rw [renderMsg_suppressed changed hidden, renderMsg_suppressed changed' hidden']
  · rw [renderMsg_change changed, renderMsg_change changed', named]
    exact (alike.published_iff dovecot dtxn event'.name msg hidden).mpr ⟨keywords, keywordsOld⟩

/-- The same renderings are sent, in the same order. -/
theorem SameShown.renderings (shown : SameShown renderCtx events events') (dovecot : Dovecot) (dtxn : DriverTxn)
    (msg : TxnMsg) :
    events.filterMap (renderMsg dovecot dtxn renderCtx msg) =
      events'.filterMap (renderMsg dovecot dtxn renderCtx msg) := by
  induction shown with
  | nil => rfl
  | same event _ ih => rw [List.filterMap_cons, List.filterMap_cons, ih]
  | alike named changed changed' alike keywords keywordsOld _ ih =>
    have same := renderMsg_alike dovecot dtxn msg named changed changed' alike keywords keywordsOld
    rw [List.filterMap_cons, List.filterMap_cons, same, ih]
  | hidden changed hidden _ ih => rw [List.filterMap_cons_none (renderMsg_suppressed changed hidden), ih]
  | hidden' changed hidden _ ih => rw [List.filterMap_cons_none (renderMsg_suppressed changed hidden), ih]

/-- A rendering says nothing of the other events of the message. -/
theorem renderMsg_eventdata (dovecot : Dovecot) (dtxn : DriverTxn) (renderCtx : RenderContext) (msg : TxnMsg)
    (eventdata : Option (List TxnEvent)) (event : TxnEvent) :
    renderMsg dovecot dtxn renderCtx { msg with eventdata } event =
      renderMsg dovecot dtxn renderCtx msg event := by
  cases event <;> rfl

theorem process_renderings (env : Env) (dtxn : DriverTxn) (msg : TxnMsg) (kafka : Kafka) :
    (Target.msg msg).process env dtxn kafka =
      ((msg.eventdata.getD []).filterMap (renderMsg env.dovecot dtxn dtxn.context.renderCtx msg)).foldl
        (fun state str => sendToKafka env state.1 str dtxn.user.username state.2) (dtxn.context, kafka) := by
  rw [Target.process_eq, processEvents_eq]
  rfl

theorem process_sameShown (env : Env) (dtxn : DriverTxn) (msg : TxnMsg) (kafka : Kafka)
    (shown : SameShown dtxn.context.renderCtx (msg.eventdata.getD []) (eventdata.getD [])) :
    (Target.msg { msg with eventdata }).process env dtxn kafka = (Target.msg msg).process env dtxn kafka := by
  rw [process_renderings, process_renderings, shown.renderings]
  simp only [renderMsg_eventdata]

/-- What the instances made by these operations show of events. -/
def renderCtxs (env : Env) (ops : List SessionOp) : List RenderContext :=
  ops.filterMap fun
    | .driver (.init config user) => some (initContext env.dovecot config (env.mailUser user)).renderCtx
    | _ => none

/-- The same operation, or the same message with events of which the instance shows the same. -/
inductive SameOp (env : Env) (before : List SessionOp) : SessionOp → SessionOp → Prop where
  | refl (op : SessionOp) : SameOp env before op op
  | process {dtxn : OpenTxn} {msg : TxnMsg} {eventdata : Option (List TxnEvent)} {renderCtx : RenderContext} :
      (renderCtxs env before)[dtxn.inst]? = some renderCtx →
      SameShown renderCtx (msg.eventdata.getD []) (eventdata.getD []) →
      SameOp env before (.process dtxn (.msg msg)) (.process dtxn (.msg { msg with eventdata }))

/-- A message of whose events the instance shows nothing. -/
inductive Unseen (env : Env) (before : List SessionOp) : SessionOp → Prop where
  | process {dtxn : OpenTxn} {msg : TxnMsg} {renderCtx : RenderContext} :
      (renderCtxs env before)[dtxn.inst]? = some renderCtx →
      SameShown renderCtx (msg.eventdata.getD []) [] → Unseen env before (.process dtxn (.msg msg))

theorem KeepsOptions.renderCtxs (kept : KeepsOptions instances instances')
    (length : instances'.length = instances.length) :
    instances'.map (fun inst => inst.ctx.renderCtx) = instances.map (fun inst => inst.ctx.renderCtx) := by
  apply List.ext_getElem?
  intro i
  rw [List.getElem?_map, List.getElem?_map]
  cases found : instances[i]? with
  | none =>
    rw [List.getElem?_eq_none_iff, ← length, ← List.getElem?_eq_none_iff] at found
    rw [found]
  | some inst =>
    obtain ⟨inst', found', -, same⟩ := kept i inst found
    rw [found', Option.map_some, Option.map_some, same]

theorem run_renderCtxs (run : Run (sessions env registry before) ops s) :
    s.driver.instances.map (fun inst => inst.ctx.renderCtx) = renderCtxs env ops := by
  induction run with
  | start initial =>
    obtain rfl := initial
    rfl
  | @next ops s op t _ step ih =>
    rw [renderCtxs, List.filterMap_append, ← renderCtxs, ← ih]
    have effect := session_effect step
    have keeps := effect.keepsOptions
    cases effect with
    | @driver op _ external permitted done =>
      have effect := exec_effect permitted done
      cases effect with
      | init => simp
      | initGlobal => contradiction
      | onInstance _ _ _ works => cases op <;> contradiction
      | deinit _ split => simpa using keeps.renderCtxs (by simp [split])
      | kept | cleanup => simp
    | create | beginTxn | endTxn => simp
    | process _ _ _ split => simpa using keeps.renderCtxs (by simp [split])

/-- The instance that an operation works on shows what its `init` was asked to show. -/
theorem instance_renderCtx {s : Session} {i : Nat} {inst : Instance}
    (run : Run (sessions env registry before) ops s) (found : s.driver.instances[i]? = some inst)
    (made : (renderCtxs env ops)[i]? = some renderCtx) :
    inst.ctx.renderCtx = renderCtx := by
  rw [← run_renderCtxs run, List.getElem?_map, found] at made
  exact Option.some.inj made

theorem SameOp.agree (alike : SameOp env ops op op') (run : Run (sessions env registry before) ops s)
    (step : (sessions env registry before).step s op t) (step' : (sessions env registry before).step s op' t') :
    t = t' := by
  suffices same : s.exec env op = s.exec env op' from
    Except.ok.inj (step.2.symm.trans (same.trans step'.2))
  cases alike with
  | refl => rfl
  | @process dtxn msg eventdata renderCtx made shown =>
    obtain ⟨inst, found, -⟩ := (s.driver.liveAt_iff dtxn.inst).mp step.1.2.1
    have own := instance_renderCtx run found made
    subst own
    simp only [Session.exec, State.onInstance, found]
    have calls : (Target.msg { msg with eventdata }).process env ⟨env.mailUser dtxn.user, inst.ctx⟩ =
        (Target.msg msg).process env ⟨env.mailUser dtxn.user, inst.ctx⟩ :=
      funext fun kafka => process_sameShown env ⟨env.mailUser dtxn.user, inst.ctx⟩ msg kafka shown
    rw [calls]

theorem Unseen.still (unseen : Unseen env ops op) (run : Run (sessions env registry before) ops s)
    (step : (sessions env registry before).step s op t) : t = s := by
  cases unseen with
  | @process dtxn msg renderCtx made shown =>
    have effect := session_effect step
    cases effect with
    | @process _ _ ctx kafka first rest inst g _ _ _ _ split position _ present processed =>
      have own := instance_renderCtx run (instance_at split position) made
      subst own
      have nothing := shown.renderings env.dovecot ⟨env.mailUser dtxn.user, inst.ctx⟩ msg
      rw [process_renderings, nothing] at processed
      obtain ⟨rfl, rfl⟩ := Prod.mk.inj processed
      rw [← split, ← present]
      rfl

/-- Runs of which the same gets through end in the same state: they have made the same calls
of librdkafka, in the same order and byte for byte. -/
theorem sessions_private (run : Run (sessions env registry before) ops s)
    (run' : Run (sessions env registry before) ops' s') (matched : Matched (SameOp env) (Unseen env) ops ops') :
    s = s' := by
  refine Run.matched matched run run' ?_ ?_ ?_
  · rintro s s' rfl rfl
    rfl
  · exact fun _ s op op' t t' run alike step step' => alike.agree run step step'
  · exact fun _ s op t run unseen step => unseen.still run step

namespace Sample

/-- The event without the keyword that does not begin with the prefix. -/
def labelled : TxnEvent := .flagsclear ⟨mailSeen, some [lit "$label1"], mailSeen ||| mailFlagged, none⟩

/-- A flag without a name, of which nothing gets through. -/
def quiet : TxnEvent := .flagsset ⟨0x20, none⟩

def begun : List SessionOp := [.driver (initUser user), .create user, .beginTxn 0 0]

def delivers (events : List TxnEvent) : SessionOp := .process ⟨0, 0, user⟩ (.msg (msg events))

theorem quiet_suppressed : FlagsChange.Suppressed ⟨true, defaultPrefix⟩ ⟨0x20, none, 0, none⟩ :=
  ⟨.inr (by decide), by simp⟩

theorem delivers_matched : Matched (SameOp (env broker)) (Unseen (env broker)) (begun ++ [delivers [flagsclear]])
    (begun ++ [delivers [quiet, labelled]] ++ [delivers [quiet]]) := by
  have shown : SameShown ⟨true, defaultPrefix⟩ [flagsclear] [quiet, labelled] :=
    .hidden' rfl quiet_suppressed
      (.alike rfl rfl rfl ⟨fun _ => ⟨rfl, rfl⟩, by decide, rfl⟩ (by decide) Iff.rfl .nil)
  have alike : SameOp (env broker) begun (delivers [flagsclear]) (delivers [quiet, labelled]) :=
    .process (by rfl) shown
  have made : (renderCtxs (env broker) (begun ++ [delivers [quiet, labelled]]))[0]? =
      some ⟨true, defaultPrefix⟩ := rfl
  have unseen : Unseen (env broker) (begun ++ [delivers [quiet, labelled]]) (delivers [quiet]) :=
    .process made (.hidden rfl quiet_suppressed .nil)
  exact ((Matched.refl (fun _ => .refl) begun).both alike).right unseen

end Sample

theorem sessions_private_delivers : ∃ s s',
    Run (sessions (Sample.env Sample.broker) Sample.registry fun _ => 1)
      (Sample.begun ++ [Sample.delivers [Sample.flagsclear]]) s ∧
    Run (sessions (Sample.env Sample.broker) Sample.registry fun _ => 1)
      (Sample.begun ++ [Sample.delivers [Sample.quiet, Sample.labelled]] ++ [Sample.delivers [Sample.quiet]]) s' ∧
    (enqueued s.driver.trace).length = 1 ∧ s = s' := by
  obtain ⟨s, run, sent⟩ : ∃ s, Run (sessions (Sample.env Sample.broker) Sample.registry fun _ => 1)
      (Sample.begun ++ [Sample.delivers [Sample.flagsclear]]) s ∧
      decide ((enqueued s.driver.trace).length = 1) = true :=
    replay_reaches (Session.next_sound _ _ _) rfl _ (by decide +kernel)
  obtain ⟨s', run', -⟩ : ∃ s', Run (sessions (Sample.env Sample.broker) Sample.registry fun _ => 1)
      (Sample.begun ++ [Sample.delivers [Sample.quiet, Sample.labelled]] ++ [Sample.delivers [Sample.quiet]]) s' ∧
      decide ((enqueued s'.driver.trace).length = 1) = true :=
    replay_reaches (Session.next_sound _ _ _) rfl _ (by decide +kernel)
  exact ⟨s, s', run, run', of_decide_eq_true sent, sessions_private run run' Sample.delivers_matched⟩

end PushNotificationKafka
