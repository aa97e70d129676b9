import PushNotificationKafka.Notification

/-! What `keyword_prefix` and `send_flags` let through of a flags event: when nothing
is left the event is suppressed, and what does not get through shows at most in an
array that is empty instead of absent. -/
namespace PushNotificationKafka
open Bytes Json

/-- The arguments of `write_flags_event` that differ from one flags event of a
message to another. -/
structure FlagsChange where
  flags : UInt32
  keywords : Option (List CStr)
  flagsOld : UInt32
  keywordsOld : Option (List CStr)

/-- What `FlagsSet` and `FlagsClear` events give to `write_flags_event`. -/
def TxnEvent.change : TxnEvent → Option FlagsChange
  | .flagsset data => some ⟨data.flagsSet, data.keywordsSet, 0, none⟩
  | .flagsclear data => some ⟨data.flagsClear, data.keywordsClear, data.flagsOld, data.keywordsOld⟩
  | _ => none

/-- The keywords that begin with `keyword_prefix`. -/
def visible (renderCtx : RenderContext) (keywords : Option (List CStr)) : List CStr :=
  (keywords.getD []).filter (renderCtx.keywordPrefix.isPrefixOf ·)

namespace FlagsChange

def write (dovecot : Dovecot) (dtxn : DriverTxn) (renderCtx : RenderContext) (eventName : CStr)
    (msg : TxnMsg) (change : FlagsChange) : Option CStr :=
  writeFlagsEvent dovecot dtxn renderCtx eventName msg change.flags change.keywords change.flagsOld
    change.keywordsOld

/-- Neither a named flag nor a keyword gets through. -/
def Suppressed (renderCtx : RenderContext) (change : FlagsChange) : Prop :=
  (renderCtx.sendFlags = false ∨
    ∀ flag ∈ flagNames, change.flags &&& flag.1 = 0 ∧ change.flagsOld &&& flag.1 = 0) ∧
  ∀ keyword ∈ change.keywords.getD [] ++ change.keywordsOld.getD [], ¬ renderCtx.keywordPrefix <+: keyword

end FlagsChange

theorem renderMsg_change (changed : event.change = some change) :
    renderMsg dovecot dtxn renderCtx msg event = change.write dovecot dtxn renderCtx event.name msg := by
  cases event with
  | flagsset | flagsclear =>
    obtain rfl := Option.some.inj changed
    rfl
  | _ => contradiction

theorem flagValues_nil (flags : UInt32) :
    (flagValues flags).isEmpty = true ↔ ∀ flag ∈ flagNames, flags &&& flag.1 = 0 := by
  simp [flagValues, hasFlag, List.filter_eq_nil_iff]

theorem visible_nil (renderCtx : RenderContext) (keywords : Option (List CStr)) :
    (visible renderCtx keywords).isEmpty = true ↔
      ∀ keyword ∈ keywords.getD [], ¬ renderCtx.keywordPrefix <+: keyword := by
  simp [visible, List.filter_eq_nil_iff, List.isPrefixOf_iff_prefix]

/-- A keyword that does not get through leaves the loop as it is. -/
theorem writeKeyword_hidden (dovecot : Dovecot) (renderCtx : RenderContext) (keywords : List CStr)
    (state : Nat × Bool × CStr) :
    keywords.foldl (writeKeyword dovecot renderCtx) state =
      (visible renderCtx (some keywords)).foldl (writeKeyword dovecot renderCtx) state := by
  induction keywords generalizing state with
  | nil => rfl
  | cons keyword keywords ih =>
    by_cases starts : renderCtx.keywordPrefix.isPrefixOf keyword = true
    · have kept : visible renderCtx (some (keyword :: keywords)) =
          keyword :: visible renderCtx (some keywords) := List.filter_cons_of_pos starts
      rw [kept, List.foldl_cons, List.foldl_cons, ih]
    · have dropped : visible renderCtx (some (keyword :: keywords)) = visible renderCtx (some keywords) :=
        List.filter_cons_of_neg starts
      have same : writeKeyword dovecot renderCtx state keyword = state := by
        simp [writeKeyword, strStartsWith_spec, starts]
      rw [dropped, List.foldl_cons, same, ih]

theorem writeKeyword_written (dovecot : Dovecot) (renderCtx : RenderContext) (keywords : List CStr)
    (state : Nat × Bool × CStr) :
    (keywords.foldl (writeKeyword dovecot renderCtx) state).2.1 =
      (state.2.1 || !(visible renderCtx (some keywords)).isEmpty) := by
  induction keywords generalizing state with
  | nil => simp [visible]
  | cons keyword keywords ih =>
    obtain ⟨i, written, str⟩ := state
    rw [List.foldl_cons, ih]
    by_cases starts : renderCtx.keywordPrefix.isPrefixOf keyword = true
    · simp [writeKeyword, strStartsWith_spec, visible, starts]
    · simp [writeKeyword, strStartsWith_spec, visible, starts]

/-- A section of keywords counts as written when one gets through. -/
theorem writeKeywordsSection_written (dovecot : Dovecot) (renderCtx : RenderContext) (name : CStr)
    (keywords : Option (List CStr)) (state : Bool × CStr) :
    (writeKeywordsSection dovecot renderCtx name keywords state).1 =
      (state.1 || !(visible renderCtx keywords).isEmpty) := by
  obtain ⟨written, str⟩ := state
  match keywords with
  | none | some [] => simp [writeKeywordsSection, visible]
  | some (keyword :: keywords) =>
    exact writeKeyword_written dovecot renderCtx (keyword :: keywords) (0, written, str ++ name)

theorem flagSections_written (renderCtx : RenderContext) (flags flagsOld : UInt32) (str : CStr) :
    (flagSections renderCtx flags flagsOld str).1 =
      (renderCtx.sendFlags && !((flagValues flags).isEmpty && (flagValues flagsOld).isEmpty)) := by
  simp only [flagSections, writeFlagsSection_written, Bool.false_or, Bool.not_and, Bool.and_or_distrib_left]

theorem keywordSections_written (dovecot : Dovecot) (renderCtx : RenderContext)
    (keywords keywordsOld : Option (List CStr)) (str : CStr) :
    (keywordSections dovecot renderCtx keywords keywordsOld str).1 =
      !((visible renderCtx keywords).isEmpty && (visible renderCtx keywordsOld).isEmpty) := by
  simp only [keywordSections, writeKeywordsSection_written, Bool.false_or, Bool.not_and]

namespace FlagsChange

/-- The event is suppressed when neither kind of sections has written anything. -/
theorem suppressed_iff (renderCtx : RenderContext) (change : FlagsChange) (dovecot : Dovecot) (str str' : CStr) :
    change.Suppressed renderCtx ↔
      (flagSections renderCtx change.flags change.flagsOld str).1 = false ∧
        (keywordSections dovecot renderCtx change.keywords change.keywordsOld str').1 = false := by
  have flags : (flagSections renderCtx change.flags change.flagsOld str).1 = false ↔
      (renderCtx.sendFlags = false ∨
        ∀ flag ∈ flagNames, change.flags &&& flag.1 = 0 ∧ change.flagsOld &&& flag.1 = 0) := by
    rw [flagSections_written, Bool.and_eq_false_iff, Bool.not_eq_false', Bool.and_eq_true, flagValues_nil,
      flagValues_nil]
    simp only [← forall₂_and]
  have keywords : (keywordSections dovecot renderCtx change.keywords change.keywordsOld str').1 = false ↔
      ∀ keyword ∈ change.keywords.getD [] ++ change.keywordsOld.getD [],
        ¬ renderCtx.keywordPrefix <+: keyword := by
    rw [keywordSections_written, Bool.not_eq_false', Bool.and_eq_true, visible_nil, visible_nil]
    simp only [List.mem_append, or_imp, forall_and]
  rw [flags, keywords]
  rfl

theorem write_none (dovecot : Dovecot) (dtxn : DriverTxn) (renderCtx : RenderContext) (eventName : CStr)
    (msg : TxnMsg) (change : FlagsChange) :
    change.write dovecot dtxn renderCtx eventName msg = none ↔ change.Suppressed renderCtx := by
  let start := writeMsgPrefix dovecot dtxn eventName msg
  let flag := flagSections renderCtx change.flags change.flagsOld start
  rw [change.suppressed_iff renderCtx dovecot start flag.2, FlagsChange.write, writeFlagsEvent_eq]
  simp [flag, start]

end FlagsChange

/-- A flags event is suppressed exactly when nothing of it gets through, and a keyword
gets through exactly when it begins with the prefix. -/
theorem write_none_iff (dovecot : Dovecot) (dtxn : DriverTxn) (renderCtx : RenderContext) (eventName : CStr)
    (msg : TxnMsg) (change : FlagsChange) :
    (change.write dovecot dtxn renderCtx eventName msg = none ↔ change.Suppressed renderCtx) ∧
      ∀ str start : CStr, strStartsWith (some str) (some start) = true ↔ start <+: str := by
  constructor
  · exact change.write_none dovecot dtxn renderCtx eventName msg
  · intro str start
    rw [strStartsWith_spec]
    exact List.isPrefixOf_iff_prefix

/-- The configuration lets the same of both through. -/
structure Alike (renderCtx : RenderContext) (left right : FlagsChange) : Prop where
  flags : renderCtx.sendFlags = true → left.flags = right.flags ∧ left.flagsOld = right.flagsOld
  keywords : visible renderCtx left.keywords = visible renderCtx right.keywords
  keywordsOld : visible renderCtx left.keywordsOld = visible renderCtx right.keywordsOld

theorem Alike.symm (alike : Alike renderCtx left right) : Alike renderCtx right left where
  flags sent := ⟨(alike.flags sent).1.symm, (alike.flags sent).2.symm⟩
  keywords := alike.keywords.symm
  keywordsOld := alike.keywordsOld.symm

/-- A section depends on the keywords that get through, and on whether there are any
keywords at all. -/
theorem writeKeywordsSection_eq (dovecot : Dovecot) (renderCtx : RenderContext) (name : CStr)
    (keywords : Option (List CStr)) (state : Bool × CStr) :
    writeKeywordsSection dovecot renderCtx name keywords state =
      if keywords.getD [] = [] then state
      else
        let written := (visible renderCtx keywords).foldl (writeKeyword dovecot renderCtx)
          (0, state.1, state.2 ++ name)
        (written.2.1, written.2.2 ++ [rbracket]) := by
  obtain ⟨written, str⟩ := state
  match keywords with
  | none | some [] => rfl
  | some (keyword :: keywords) =>
    simp only [writeKeywordsSection]
    rw [writeKeyword_hidden]
    rfl

/-- Keywords of which none gets through leave an empty array, no keywords leave
nothing. -/
theorem writeKeywordsSection_hidden (dovecot : Dovecot) (name : CStr) (state : Bool × CStr)
    (same : visible renderCtx left = visible renderCtx right) (listed : left.getD [] ≠ [])
    (unlisted : right.getD [] = []) :
    writeKeywordsSection dovecot renderCtx name left state = (state.1, state.2 ++ name ++ [rbracket]) ∧
      writeKeywordsSection dovecot renderCtx name right state = state := by
  have hidden : visible renderCtx left = [] := by
    rw [same, visible, unlisted]
    rfl
  constructor
  · rw [writeKeywordsSection_eq, if_neg listed, hidden]
    rfl
  · rw [writeKeywordsSection_eq, if_pos unlisted]

theorem writeKeywordsSection_starts (dovecot : Dovecot) (renderCtx : RenderContext) (name : CStr)
    (keywords : Option (List CStr)) (written : Bool) (str : CStr) :
    (writeKeywordsSection dovecot renderCtx name keywords (written, str)).2 = str ∨
      ∃ rest, (writeKeywordsSection dovecot renderCtx name keywords (written, str)).2 = str ++ (name ++ rest) := by
  rw [writeKeywordsSection_eq]
  split
  · exact .inl rfl
  · obtain ⟨rest, written⟩ := foldl_extends (fun state => state.2.2) (writeKeyword dovecot renderCtx)
      (writeKeyword_extends dovecot renderCtx) (visible renderCtx keywords) (0, written, str ++ name)
    refine .inr ⟨rest ++ [rbracket], ?_⟩
    simp only [← written, List.append_assoc]

theorem flagSections_alike (alike : Alike renderCtx left right) (str : CStr) :
    flagSections renderCtx left.flags left.flagsOld str = flagSections renderCtx right.flags right.flagsOld str := by
  cases sent : renderCtx.sendFlags with
  | true =>
    obtain ⟨flags, flagsOld⟩ := alike.flags sent
    rw [flags, flagsOld]
  | false => simp [flagSections, writeFlagsSection, sent]

/-- No keywords next to hidden ones: the texts part where the empty array stands. -/
theorem keywordSections_hidden (dovecot : Dovecot) (str : CStr) (alike : Alike renderCtx left right)
    (listed : left.keywords.getD [] ≠ []) (unlisted : right.keywords.getD [] = []) :
    (keywordSections dovecot renderCtx left.keywords left.keywordsOld str).2 ++ [rbrace] ≠
      (keywordSections dovecot renderCtx right.keywords right.keywordsOld str).2 ++ [rbrace] := by
  let name := opening (lit "keywords") ++ [lbracket]
  let nameOld := opening (lit "oldKeywords") ++ [lbracket]
  obtain ⟨left', right'⟩ := writeKeywordsSection_hidden dovecot name (false, str) alike.keywords listed unlisted
  have apart (rest rest' : CStr) : name ++ rest ≠ nameOld ++ rest' := by
    have third : ∀ text : CStr, (name ++ text)[2]? = some (ascii 'k') ∧ (nameOld ++ text)[2]? = some (ascii 'o') :=
      fun text => ⟨rfl, rfl⟩
    intro same
    have contrary := (third rest).1
    rw [same, (third rest').2] at contrary
    exact absurd contrary (by decide)
  intro same
  simp only [keywordSections] at same
  rw [left', right'] at same
  have extended := writeKeywordsSection_extends dovecot renderCtx nameOld left.keywordsOld
    (false, str ++ name ++ [rbracket])
  have grown : str ++ name ++ [rbracket] <+:
      (writeKeywordsSection dovecot renderCtx nameOld right.keywordsOld (false, str)).2 ++ [rbrace] := by
    rw [← same]
    exact extended.trans (List.prefix_append _ _)
  rw [List.append_assoc str] at grown
  rcases writeKeywordsSection_starts dovecot renderCtx nameOld right.keywordsOld false str with
    stays | ⟨rest, starts⟩
  · rw [stays, List.prefix_append_right_inj] at grown
    exact absurd (List.isPrefixOf_iff_prefix.mpr grown) (by decide)
  · rw [starts, List.append_assoc str, List.prefix_append_right_inj] at grown
    obtain ⟨last, grown⟩ := grown
    rw [List.append_assoc name, List.append_assoc nameOld] at grown
    exact apart _ _ grown

/-- The same of the old keywords, after sections of keywords that agree. -/
theorem keywordSections_hiddenOld (dovecot : Dovecot) (str : CStr) (alike : Alike renderCtx left right)
    (both : left.keywords.getD [] = [] ↔ right.keywords.getD [] = [])
    (listed : left.keywordsOld.getD [] ≠ []) (unlisted : right.keywordsOld.getD [] = []) :
    (keywordSections dovecot renderCtx left.keywords left.keywordsOld str).2 ++ [rbrace] ≠
      (keywordSections dovecot renderCtx right.keywords right.keywordsOld str).2 ++ [rbrace] := by
  intro same
  simp only [keywordSections] at same
  have first : writeKeywordsSection dovecot renderCtx (opening (lit "keywords") ++ [lbracket]) left.keywords
      (false, str) = writeKeywordsSection dovecot renderCtx (opening (lit "keywords") ++ [lbracket])
        right.keywords (false, str) := by
    simp only [writeKeywordsSection_eq, both, alike.keywords]
  rw [first] at same
  obtain ⟨left', right'⟩ := writeKeywordsSection_hidden dovecot (opening (lit "oldKeywords") ++ [lbracket])
    (writeKeywordsSection dovecot renderCtx (opening (lit "keywords") ++ [lbracket]) right.keywords (false, str))
    alike.keywordsOld listed unlisted
  rw [left', right', List.append_assoc, List.append_assoc, List.append_cancel_left_eq] at same
  exact absurd same (by decide)

theorem Alike.suppressed (alike : Alike renderCtx left right) (dovecot : Dovecot) :
    left.Suppressed renderCtx ↔ right.Suppressed renderCtx := by
  rw [left.suppressed_iff renderCtx dovecot [] [], right.suppressed_iff renderCtx dovecot [] [],
    flagSections_alike alike, keywordSections_written, keywordSections_written, alike.keywords,
    alike.keywordsOld]

/-- An event that is not suppressed is its sections and the closing brace. -/
theorem FlagsChange.write_some (dovecot : Dovecot) (dtxn : DriverTxn) (eventName : CStr) (msg : TxnMsg)
    {change : FlagsChange} (published : ¬ change.Suppressed renderCtx) :
    change.write dovecot dtxn renderCtx eventName msg =
      some ((keywordSections dovecot renderCtx change.keywords change.keywordsOld
        (flagSections renderCtx change.flags change.flagsOld (writeMsgPrefix dovecot dtxn eventName msg)).2).2 ++
          [rbrace]) := by
  have present := mt (change.write_none dovecot dtxn renderCtx eventName msg).mp published
  rw [FlagsChange.write, writeFlagsEvent_eq] at present ⊢
  simp only [ite_eq_right_iff, reduceCtorEq, imp_false, Decidable.not_not] at present
  exact if_pos present

/-- Sections of which the same keywords get through agree exactly when neither list of
keywords is empty in the one alone. -/
theorem keywordSections_alike_iff (dovecot : Dovecot) (str : CStr) (alike : Alike renderCtx left right) :
    (keywordSections dovecot renderCtx left.keywords left.keywordsOld str).2 ++ [rbrace] =
        (keywordSections dovecot renderCtx right.keywords right.keywordsOld str).2 ++ [rbrace] ↔
      (left.keywords.getD [] = [] ↔ right.keywords.getD [] = []) ∧
        (left.keywordsOld.getD [] = [] ↔ right.keywordsOld.getD [] = []) := by
  constructor
  · intro same
    have keywords : left.keywords.getD [] = [] ↔ right.keywords.getD [] = [] := by
      constructor
      · intro unlisted
        by_contra listed
        exact keywordSections_hidden dovecot str alike.symm listed unlisted same.symm
      · intro unlisted
        by_contra listed
        exact keywordSections_hidden dovecot str alike listed unlisted same
    refine ⟨keywords, ?_, ?_⟩
    · intro unlisted
      by_contra listed
      exact keywordSections_hiddenOld dovecot str alike.symm keywords.symm listed unlisted same.symm
    · intro unlisted
      by_contra listed
      exact keywordSections_hiddenOld dovecot str alike keywords listed unlisted same
  · rintro ⟨keywords, keywordsOld⟩
    simp only [keywordSections, writeKeywordsSection_eq, keywords, keywordsOld, alike.keywords,
      alike.keywordsOld]

theorem Alike.published_iff (alike : Alike renderCtx left right) (dovecot : Dovecot) (dtxn : DriverTxn)
    (eventName : CStr) (msg : TxnMsg) (published : ¬ left.Suppressed renderCtx) :
    left.write dovecot dtxn renderCtx eventName msg = right.write dovecot dtxn renderCtx eventName msg ↔
      (left.keywords.getD [] = [] ↔ right.keywords.getD [] = []) ∧
        (left.keywordsOld.getD [] = [] ↔ right.keywordsOld.getD [] = []) := by
  have published' := mt (alike.suppressed dovecot).mpr published
  rw [FlagsChange.write_some dovecot dtxn eventName msg published,
    FlagsChange.write_some dovecot dtxn eventName msg published', Option.some.injEq,
    flagSections_alike alike]
  exact keywordSections_alike_iff dovecot _ alike

/-- Two flags events of which the same gets through are published alike exactly when
both are suppressed, or neither list of keywords is empty in the one alone. -/
theorem write_alike_iff (alike : Alike renderCtx left right) (dovecot : Dovecot) (dtxn : DriverTxn)
    (eventName : CStr) (msg : TxnMsg) :
    left.write dovecot dtxn renderCtx eventName msg = right.write dovecot dtxn renderCtx eventName msg ↔
      left.Suppressed renderCtx ∨
        ((left.keywords.getD [] = [] ↔ right.keywords.getD [] = []) ∧
          (left.keywordsOld.getD [] = [] ↔ right.keywordsOld.getD [] = [])) := by
  by_cases suppressed : left.Suppressed renderCtx
  · have suppressed' := (alike.suppressed dovecot).mp suppressed
    rw [(left.write_none ..).mpr suppressed, (right.write_none ..).mpr suppressed']
    exact iff_of_true rfl (.inl suppressed)
  · rw [or_iff_right suppressed]
    exact alike.published_iff dovecot dtxn eventName msg suppressed

namespace Sample

/-- `Seen` is set or cleared, together with the keywords. -/
def seen (keywords : List CStr) : FlagsChange := ⟨mailSeen, some keywords, 0, none⟩

/-- The event for it. -/
def published (keywords : List CStr) : Option CStr :=
  (seen keywords).write dovecot dtxn context.renderCtx flagsclearName (msg [])

theorem seen_alike (same : visible context.renderCtx (some keywords) = visible context.renderCtx (some others)) :
    Alike context.renderCtx (seen keywords) (seen others) :=
  ⟨fun _ => ⟨rfl, rfl⟩, same, rfl⟩

end Sample

theorem write_alike_iff_hidden :
    Sample.published [lit "$label1"] = Sample.published [lit "hidden", lit "$label1"] ∧
      (Sample.published [lit "$label1"]).isSome = true := by
  have alike : Alike Sample.context.renderCtx (Sample.seen [lit "$label1"])
      (Sample.seen [lit "hidden", lit "$label1"]) := Sample.seen_alike (by decide)
  constructor
  · exact (write_alike_iff alike Sample.dovecot Sample.dtxn flagsclearName (Sample.msg [])).mpr
      (.inr ⟨by decide, by decide⟩)
  · decide +kernel

/-- A hidden keyword shows in an empty array. -/
theorem write_hidden : Alike Sample.context.renderCtx (Sample.seen [lit "hidden"]) (Sample.seen []) ∧
    Sample.published [lit "hidden"] ≠ Sample.published [] := by
  have alike : Alike Sample.context.renderCtx (Sample.seen [lit "hidden"]) (Sample.seen []) :=
    Sample.seen_alike (by decide)
  have published : ¬ (Sample.seen [lit "hidden"]).Suppressed Sample.context.renderCtx := by
    rintro ⟨off | unset, -⟩
    · contradiction
    · exact absurd (unset (mailSeen, lit "\\Seen") (by simp [flagNames])).1 (by decide)
  refine ⟨alike, ?_⟩
  intro same
  have lists := (alike.published_iff Sample.dovecot Sample.dtxn flagsclearName (Sample.msg []) published).mp same
  exact absurd (lists.1.mpr rfl) (by decide)

end PushNotificationKafka
