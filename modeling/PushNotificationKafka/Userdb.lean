import PushNotificationKafka.Coherence
import PushNotificationKafka.Notification

/-! The `userdb_json` of a context: the fields of the userdb option that the user
has a value for, as one JSON object that fits between two members. -/
namespace PushNotificationKafka
open Bytes Json Transition

/-- The fields of the option that have a value, with it, in order. -/
def userdbPairs (user : MailUser) (userdbFieldsString : Option CStr) : List (CStr × CStr) :=
  ((userdbFieldsString.map atCommas).getD []).filterMap fun field =>
    (user.getenv field).map fun value => (field, value)

def userdbMembers (pairs : List (CStr × CStr)) : List (Bytes × Value) := pairs.map fun p => (p.1, .str p.2)

/-- The invariant of the loop over the fields: the counter counts the pairs, and the
text is the key and an object with them, which only the first pair opens. -/
def Collected (pairs : List (CStr × CStr)) : Nat × CStr → Prop
  | (i, userdbJson) => i = pairs.length ∧
      ((pairs = [] ∧ userdbJson = lit "\"userdb\":" ++ [lbrace]) ∨
        ∃ object, userdbJson = lit "\"userdb\":" ++ object ∧ OpenObject object (userdbMembers pairs))

theorem Collected.add (collected : Collected pairs (i, userdbJson)) {name text : Bytes}
    (body : StringBody name field) (body' : StringBody text value) :
    Collected (pairs ++ [(field, value)])
      (i + 1, userdbJson ++ ((if i ≠ 0 then lit ",\"" else lit "\"") ++
        (name ++ (lit "\":\"" ++ (text ++ lit "\""))))) := by
  obtain ⟨counted, state⟩ := collected
  have member : Member (quote :: (name ++ quote :: colon :: quote :: (text ++ [quote]))) (field, .str value) :=
    .of_parts body (.str body')
  have members : userdbMembers (pairs ++ [(field, value)]) = userdbMembers pairs ++ [(field, .str value)] := by
    simp [userdbMembers]
  have first : lit "\"" = [quote] := rfl
  have next : lit ",\"" = [comma, quote] := rfl
  have middle : lit "\":\"" = [quote, colon, quote] := rfl
  refine ⟨by simp [counted], .inr ?_⟩
  rcases state with ⟨rfl, rfl⟩ | ⟨object, rfl, opened⟩
  · have started := OpenObject.first member
    exact ⟨_, by simp [counted, first, middle], started⟩
  · have later : pairs ≠ [] := by
      rintro rfl
      obtain ⟨_, _, members⟩ := opened
      cases members
    have grown := opened.add member
    rw [← members] at grown
    refine ⟨_, ?_, grown⟩
    simp [counted, later, first, next, middle]

theorem userdbField_spec (escapes : Escapes dovecot.jsonAppendEscaped) (user : MailUser) (field : CStr)
    (collected : Collected pairs state) :
    Collected (pairs ++ ((user.getenv field).map fun value => (field, value)).toList)
      (userdbField dovecot user state field) := by
  obtain ⟨i, userdbJson⟩ := state
  cases present : user.getenv field with
  | none => simpa [userdbField, present] using collected
  | some value =>
    have added := collected.add (escapes field) (escapes value)
    simp only [userdbField, present, Option.map_some, Option.toList_some]
    split
    · rename_i later
      simpa only [if_pos later, List.append_assoc] using added
    · rename_i earliest
      simpa only [if_neg earliest, List.append_assoc] using added

theorem userdbField_loop (escapes : Escapes dovecot.jsonAppendEscaped) (user : MailUser) (fields : List CStr)
    (collected : Collected pairs state) :
    Collected (pairs ++ fields.filterMap fun field => (user.getenv field).map fun value => (field, value))
      (fields.foldl (userdbField dovecot user) state) := by
  induction fields generalizing pairs state with
  | nil => simpa using collected
  | cons field fields ih =>
    have rest := ih (userdbField_spec escapes user field collected)
    rw [List.foldl_cons, List.filterMap_cons]
    cases present : user.getenv field with
    | none => simpa [present] using rest
    | some value => simpa [present] using rest

/-- There is a `userdb_json` when a field has a value, and it is the key and the
object of the pairs. -/
theorem initUserdbJson_spec (escapes : Escapes dovecot.jsonAppendEscaped)
    (splits : SplitsAtCommas dovecot.pStrsplit) (user : MailUser) (userdbFieldsString : Option CStr) :
    (userdbPairs user userdbFieldsString = [] ∧ initUserdbJson dovecot user userdbFieldsString = none) ∨
      ∃ object, initUserdbJson dovecot user userdbFieldsString =
          some (lit "\"userdb\":" ++ object ++ lit ",") ∧
        Denotes object (.obj (userdbMembers (userdbPairs user userdbFieldsString))) ∧
        userdbPairs user userdbFieldsString ≠ [] := by
  cases userdbFieldsString with
  | none => exact .inl ⟨rfl, rfl⟩
  | some names =>
    have empty : Collected [] (0, lit "\"userdb\":\x7b") := ⟨rfl, .inl ⟨rfl, rfl⟩⟩
    obtain ⟨counted, object⟩ := userdbField_loop escapes user (atCommas names) empty
    have pairs : userdbPairs user (some names) =
        (atCommas names).filterMap fun field => (user.getenv field).map fun value => (field, value) := rfl
    rw [List.nil_append, ← pairs] at counted object
    simp only [initUserdbJson, splits names]
    rw [counted]
    rcases object with ⟨valueless, -⟩ | ⟨object, written, opened⟩
    · simp [valueless]
    · have valued : userdbPairs user (some names) ≠ [] := by
        intro valueless
        rw [valueless] at opened
        obtain ⟨_, _, members⟩ := opened
        cases members
      have close : lit "\x7d," = [rbrace] ++ lit "," := rfl
      refine .inr ⟨object ++ [rbrace], ?_, opened.close, valued⟩
      rw [if_pos (List.length_pos_of_ne_nil valued), written, close]
      simp only [List.append_assoc]

/-- `init` leaves `userdb_json` NULL exactly when there is no option or none of its
names has a value, and makes it the object of the pairs otherwise. -/
theorem init_userdbJson (escapes : Escapes env.dovecot.jsonAppendEscaped)
    (splits : SplitsAtCommas env.dovecot.pStrsplit) (config : DriverConfig) (user : UserId) (world : World) :
    let userdbJson := (init env config user world).1.userdbJson
    (userdbJson = none ↔ ∀ names, config (lit "userdb") = some names →
      ∀ field ∈ atCommas names, (env.mailUser user).getenv field = none) ∧
    ∀ fragment, userdbJson = some fragment →
      ∃ object, fragment = lit "\"userdb\":" ++ object ++ lit "," ∧
        Denotes object (.obj (userdbMembers (userdbPairs (env.mailUser user) (config (lit "userdb"))))) ∧
        decode object = some (.obj (userdbMembers (userdbPairs (env.mailUser user) (config (lit "userdb"))))) := by
  intro userdbJson
  have same : userdbJson = initUserdbJson env.dovecot (env.mailUser user) (config (lit "userdb")) := rfl
  have valueless : userdbPairs (env.mailUser user) (config (lit "userdb")) = [] ↔
      ∀ names, config (lit "userdb") = some names →
        ∀ field ∈ atCommas names, (env.mailUser user).getenv field = none := by
    cases config (lit "userdb") with
    | none => simp [userdbPairs]
    | some names => simp [userdbPairs]
  rw [same, ← valueless]
  rcases initUserdbJson_spec escapes splits (env.mailUser user) (config (lit "userdb")) with
    ⟨none, absent⟩ | ⟨object, present, denotes, valued⟩
  · rw [absent]
    exact ⟨iff_of_true rfl none, by simp⟩
  · rw [present]
    refine ⟨iff_of_false (Option.some_ne_none _) valued, ?_⟩
    rintro fragment made
    obtain rfl := Option.some.inj made
    exact ⟨object, rfl, denotes, decode_complete (.of_denotes denotes)⟩

namespace Sample

/-- A driver URL with two userdb fields; `carol` has no value for the first. -/
def userdbConfig2 : DriverConfig := fun key => if key = lit "userdb" then some (lit "k0,k1") else none

def carolEnv : Env := { env broker with mailUser := fun _ => carol }

end Sample

theorem init_userdbJson_carol : ∃ object,
    (init Sample.carolEnv Sample.userdbConfig2 Sample.user State.start.world).1.userdbJson =
        some (lit "\"userdb\":" ++ object ++ lit ",") ∧
      decode object = some (.obj [(lit "k1", .str (lit "v1"))]) := by
  have escapes : Escapes Sample.carolEnv.dovecot.jsonAppendEscaped := escape_escapes
  have spec := init_userdbJson escapes Sample.dovecot_splits Sample.userdbConfig2 Sample.user State.start.world
  obtain ⟨fragment, made⟩ : ∃ fragment,
      (init Sample.carolEnv Sample.userdbConfig2 Sample.user State.start.world).1.userdbJson = some fragment :=
    Option.isSome_iff_exists.mp (by decide +kernel)
  obtain ⟨object, shape, -, decoded⟩ := spec.2 fragment made
  have pairs : userdbPairs Sample.carol (some (lit "k0,k1")) = [(lit "k1", lit "v1")] := by decide +kernel
  have option : Sample.userdbConfig2 (lit "userdb") = some (lit "k0,k1") := rfl
  have carol : Sample.carolEnv.mailUser Sample.user = Sample.carol := rfl
  rw [option, carol, pairs] at decoded
  exact ⟨object, made.trans (congrArg some shape), decoded⟩

/-- The fragment of a context that `init` has filled fits between two members. -/
theorem Built.fragment (built : Built dovecot context) (escapes : Escapes dovecot.jsonAppendEscaped)
    (splits : SplitsAtCommas dovecot.pStrsplit) :
    ∃ userdb, UserdbFragment context.userdbJson userdb := by
  obtain ⟨config, user, rkt, rfl⟩ := built
  rcases initUserdbJson_spec escapes splits user (config (lit "userdb")) with
    ⟨-, absent⟩ | ⟨object, present, denotes, -⟩
  · exact ⟨[], (congrArg (UserdbFragment · []) absent).mpr .absent⟩
  · exact ⟨_, (congrArg (UserdbFragment · _) present).mpr (.object (.of_denotes denotes))⟩

/-- In every run, what the contexts render of a message event is one JSON object. -/
theorem run_renders (run : Run (lifecycle env) ops s) (escapes : Escapes env.dovecot.jsonAppendEscaped)
    (splits : SplitsAtCommas env.dovecot.pStrsplit)
    (dates : ∀ tm tz, Plain (env.dovecot.iso8601DateCreateTm tm tz)) (user : MailUser) (member : inst ∈ s.instances)
    (named : Plain event.name)
    (rendered : renderMsg env.dovecot ⟨user, inst.ctx⟩ inst.ctx.renderCtx msg event = some str) :
    ∃ members, decode str = some (.obj members) := by
  obtain ⟨userdb, fragment⟩ := (run_built run inst member).fragment escapes splits
  obtain ⟨inner, rfl, opened⟩ := renderMsg_open escapes dates fragment named rendered
  exact ⟨_, decode_complete (.of_denotes opened.close)⟩

end PushNotificationKafka
