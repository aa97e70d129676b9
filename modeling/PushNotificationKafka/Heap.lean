import PushNotificationKafka.Sessions
import PushNotificationKafka.Userdb

/-! The memory that the driver takes from the heap itself, with `i_new` and `i_strdup`: the
global with its brokers and debug contexts, and of each context its topic, its keyword
prefix and its userdb fields. Everything else comes from pools of Dovecot. -/
namespace PushNotificationKafka
open Bytes Transition Ledger

structure Block where
  id : Nat
deriving DecidableEq, Repr

/-- `none` is a NULL pointer. -/
inductive HeapAction where
  | alloc (block : Block)
  | free (block : Option Block)
  | follow (block : Option Block)

/-- Ownership of the blocks. To free NULL does nothing. -/
def blocks : Accounts HeapAction Block where
  acquired
    | .alloc block => some block
    | _ => none
  released
    | .free (some block) => some block
    | _ => none
  uses
    | .follow block => some block
    | _ => none

/-- The pointers of a context. They dangle after its `deinit`. -/
structure ContextBlocks where
  topic : Block
  keywordPrefix : Block
  userdbJson : Option Block

/-- `kafka_global` and its pointers. -/
structure GlobalBlocks where
  self : Block
  brokers : Block
  debug : Block

structure Memory where
  contexts : List ContextBlocks
  kafkaGlobal : Option GlobalBlocks
  log : List HeapAction

namespace Memory

def start : Memory := ⟨[], none, []⟩

def act (memory : Memory) (e : HeapAction) : Memory := { memory with log := memory.log ++ [e] }

/-- `i_new` and `i_strdup`. -/
def alloc (memory : Memory) : Block × Memory := (⟨memory.log.length⟩, memory.act (.alloc ⟨memory.log.length⟩))

def iFree (memory : Memory) (block : Option Block) : Memory := memory.act (.free block)

def follow (memory : Memory) (block : Option Block) : Memory := memory.act (.follow block)

/-- `init_kafka_global` and the two strings of the first instance. -/
def initKafkaGlobal (memory : Memory) : Memory :=
  let (self, memory) := memory.alloc
  let (brokers, memory) := memory.alloc
  let (debug, memory) := memory.alloc
  { memory with kafkaGlobal := some ⟨self, brokers, debug⟩ }

/-- `userdb` tells whether one of the userdb fields has a value. -/
def initContext (memory : Memory) (userdb : Bool) : ContextBlocks × Memory :=
  let (topic, memory) := memory.alloc
  let (keywordPrefix, memory) := memory.alloc
  if userdb then
    let (userdbJson, memory) := memory.alloc
    (⟨topic, keywordPrefix, some userdbJson⟩, memory)
  else (⟨topic, keywordPrefix, none⟩, memory)

/-- What a debug line or a callback can follow on behalf of a context. Nothing reads the
debug contexts of the global. -/
def callback (memory : Memory) (context : ContextBlocks) : Memory :=
  let memory := memory.follow (memory.kafkaGlobal.map GlobalBlocks.self)
  let memory := memory.follow (memory.kafkaGlobal.map GlobalBlocks.brokers)
  let memory := memory.follow (some context.topic)
  let memory := memory.follow (some context.keywordPrefix)
  match context.userdbJson with
  | some userdbJson => memory.follow (some userdbJson)
  | none => memory

def init (memory : Memory) (userdb : Bool) : Memory :=
  let (context, memory) := memory.initContext userdb
  let memory := if memory.kafkaGlobal.isNone then memory.initKafkaGlobal else memory
  let memory := memory.callback context
  { memory with contexts := memory.contexts ++ [context] }

def deinit (memory : Memory) (i : Nat) : Memory :=
  match memory.contexts[i]? with
  | none => memory
  | some context =>
    let memory := memory.callback context
    let memory := memory.iFree (some context.topic)
    let memory := memory.iFree context.userdbJson
    memory.iFree (some context.keywordPrefix)

def cleanup (memory : Memory) (refcount : Int) : Memory :=
  match memory.kafkaGlobal with
  | none => memory
  | some global =>
    let memory := memory.follow (some global.self)
    if refcount ≤ 0 then
      let memory := memory.iFree (some global.brokers)
      let memory := memory.iFree (some global.debug)
      let memory := memory.iFree (some global.self)
      { memory with kafkaGlobal := none }
    else memory

/-- The memory beside a session. -/
def update (env : Env) (memory : Memory) (s : Session) : SessionOp → Memory
  | .driver (.init config user) =>
    memory.init (PushNotificationKafka.initContext env.dovecot config (env.mailUser user)).userdbJson.isSome
  | .driver (.deinit i) => memory.deinit i
  | .driver .cleanup => memory.cleanup s.driver.world.refcount
  | .process dtxn _ =>
    match memory.contexts[dtxn.inst]? with
    | some context => memory.callback context
    | none => memory
  | _ => memory

end Memory

def ContextBlocks.all (context : ContextBlocks) : List Block :=
  context.userdbJson.toList ++ [context.keywordPrefix, context.topic]

def GlobalBlocks.all (global : GlobalBlocks) : List Block := [global.debug, global.brokers, global.self]

/-- The blocks of the contexts of live instances. -/
def heldBlocks (instances : List Instance) (contexts : List ContextBlocks) : List Block :=
  (List.zipWith (fun inst context => if inst.live then context.all else []) instances contexts).flatten

def Memory.held (memory : Memory) (instances : List Instance) : List Block :=
  heldBlocks instances memory.contexts ++ (memory.kafkaGlobal.map GlobalBlocks.all).getD []

namespace Memory
variable {memory : Memory} {owned : List Block} {context : ContextBlocks} {global : GlobalBlocks}

/-- After all that has happened to the heap, these blocks are allocated. -/
abbrev Owns (memory : Memory) (owned : List Block) : Prop := blocks.Owns Block.id memory.log owned

theorem Owns.alloc (owns : memory.Owns owned) : memory.alloc.2.Owns (memory.alloc.1 :: owned) :=
  owns.acquire rfl rfl rfl rfl

theorem Owns.follow (owns : memory.Owns owned) (member : block ∈ owned) :
    (memory.follow (some block)).Owns owned := by
  refine owns.use ⟨rfl, rfl⟩ ?_
  intro argument followed
  obtain rfl := Option.some.inj followed
  exact ⟨block, member, rfl⟩

theorem Owns.iFree_null (owns : memory.Owns owned) : (memory.iFree none).Owns owned := by
  refine owns.use ⟨rfl, rfl⟩ ?_
  intro argument followed
  contradiction

theorem Owns.iFree (owns : memory.Owns (block :: owned)) : (memory.iFree (some block)).Owns owned :=
  owns.release rfl rfl rfl

theorem Owns.initContext (owns : memory.Owns owned) (userdb : Bool) :
    (memory.initContext userdb).2.Owns ((memory.initContext userdb).1.all ++ owned) := by
  have strings := owns.alloc.alloc
  cases userdb with
  | true => exact strings.alloc
  | false => exact strings

theorem Owns.initKafkaGlobal (owns : memory.Owns owned) :
    ∃ global, memory.initKafkaGlobal.kafkaGlobal = some global ∧
      memory.initKafkaGlobal.Owns (global.all ++ owned) :=
  ⟨_, rfl, owns.alloc.alloc.alloc⟩

theorem Owns.callback (owns : memory.Owns owned) (present : memory.kafkaGlobal = some global)
    (shared : global.all ⊆ owned) (own : context.all ⊆ owned) : (memory.callback context).Owns owned := by
  have topic : context.topic ∈ owned := own (by simp [ContextBlocks.all])
  have keywordPrefix : context.keywordPrefix ∈ owned := own (by simp [ContextBlocks.all])
  have self : global.self ∈ owned := shared (by simp [GlobalBlocks.all])
  have brokers : global.brokers ∈ owned := shared (by simp [GlobalBlocks.all])
  have strings := (((owns.follow self).follow brokers).follow topic).follow keywordPrefix
  have later : (memory.follow (some global.self)).kafkaGlobal = some global := present
  simp only [Memory.callback, present, Option.map_some, later]
  cases found : context.userdbJson with
  | none => exact strings
  | some userdbJson => exact strings.follow (own (by simp [ContextBlocks.all, found]))

theorem callback_frame (memory : Memory) (context : ContextBlocks) :
    (memory.callback context).contexts = memory.contexts ∧
      (memory.callback context).kafkaGlobal = memory.kafkaGlobal := by
  unfold callback
  split <;> exact ⟨rfl, rfl⟩

/-- What a context has allocated is freed. -/
theorem Owns.freeContext (owns : memory.Owns (context.all ++ owned)) :
    (((memory.iFree (some context.topic)).iFree context.userdbJson).iFree
      (some context.keywordPrefix)).Owns owned := by
  cases found : context.userdbJson with
  | none =>
    have same : (context.all ++ owned).Perm (context.topic :: context.keywordPrefix :: owned) := by
      simpa [ContextBlocks.all, found] using List.Perm.swap _ _ _
    have ready : memory.Owns (context.topic :: context.keywordPrefix :: owned) := owns.perm same
    exact ready.iFree.iFree_null.iFree
  | some userdbJson =>
    have same : (context.all ++ owned).Perm
        (context.topic :: userdbJson :: context.keywordPrefix :: owned) := by
      simpa [ContextBlocks.all, found] using
        ((List.Perm.swap _ _ _).cons _).trans (List.Perm.swap context.topic userdbJson _)
    have ready : memory.Owns (context.topic :: userdbJson :: context.keywordPrefix :: owned) := owns.perm same
    exact ready.iFree.iFree.iFree

theorem Owns.freeGlobal (owns : memory.Owns (global.all ++ owned)) :
    (((memory.iFree (some global.brokers)).iFree (some global.debug)).iFree (some global.self)).Owns owned := by
  have same : (global.all ++ owned).Perm (global.brokers :: global.debug :: global.self :: owned) :=
    List.Perm.swap _ _ _
  have ready : memory.Owns (global.brokers :: global.debug :: global.self :: owned) := owns.perm same
  exact ready.iFree.iFree.iFree

theorem init_frame (memory : Memory) (userdb : Bool) :
    (memory.initContext userdb).2.contexts = memory.contexts ∧
      (memory.initContext userdb).2.kafkaGlobal = memory.kafkaGlobal := by
  cases userdb <;> exact ⟨rfl, rfl⟩

/-- The global is taken with the first context. -/
theorem Owns.init (owns : memory.Owns (owned ++ (memory.kafkaGlobal.map GlobalBlocks.all).getD [])) (userdb : Bool) :
    ∃ context global, (memory.init userdb).contexts = memory.contexts ++ [context] ∧
      (memory.init userdb).kafkaGlobal = some global ∧
      (memory.init userdb).Owns (owned ++ context.all ++ global.all) := by
  obtain ⟨contexts, same⟩ := init_frame memory userdb
  have taken := owns.initContext userdb
  generalize made : memory.initContext userdb = context at taken contexts same
  obtain ⟨context, memory'⟩ := context
  have finish {last : Memory} {global : GlobalBlocks} (kept : last.contexts = memory.contexts)
      (present : last.kafkaGlobal = some global) (owned' : last.Owns (owned ++ context.all ++ global.all)) :
      ∃ context' global', ({ last.callback context with
          contexts := (last.callback context).contexts ++ [context] } : Memory).contexts = memory.contexts ++ [context'] ∧
        (last.callback context).kafkaGlobal = some global' ∧
        (last.callback context).Owns (owned ++ context'.all ++ global'.all) := by
    obtain ⟨contexts, shared⟩ := last.callback_frame context
    refine ⟨context, global, ?_, shared.trans present, ?_⟩
    · simp only [contexts, kept]
    · apply owned'.callback present
      · exact List.subset_append_right _ _
      · exact fun block member => List.mem_append_left _ (List.mem_append_right _ member)
  simp only [Memory.init, made]
  cases present : memory.kafkaGlobal with
  | some global =>
    rw [present] at same taken
    have absent : memory'.kafkaGlobal.isNone = false := by rw [same]; rfl
    simp only [absent, Bool.false_eq_true, if_false]
    refine finish contexts same (taken.perm ?_)
    simpa using (List.perm_append_comm_assoc context.all owned global.all)
  | none =>
    rw [present] at same taken
    have absent : memory'.kafkaGlobal.isNone = true := by rw [same]; rfl
    obtain ⟨global, found, both⟩ := taken.initKafkaGlobal
    simp only [absent, if_true]
    refine finish contexts found (both.perm ?_)
    have swap : (global.all ++ (context.all ++ owned)).Perm ((owned ++ context.all) ++ global.all) :=
      List.perm_append_comm.trans (List.perm_append_comm.append_right _)
    simpa using swap

end Memory

theorem heldBlocks_append (same : before.length = contexts.length) (after : List Instance)
    (contexts' : List ContextBlocks) :
    heldBlocks (before ++ after) (contexts ++ contexts') =
      heldBlocks before contexts ++ heldBlocks after contexts' := by
  rw [heldBlocks, List.zipWith_append same, List.flatten_append]
  rfl

/-- The blocks of one context set apart from those of the others. -/
theorem heldBlocks_split (same : before.length = contexts.length) (inst : Instance) (after : List Instance)
    (context : ContextBlocks) (contexts' : List ContextBlocks) :
    heldBlocks (before ++ inst :: after) (contexts ++ context :: contexts') =
      heldBlocks before contexts ++ ((if inst.live then context.all else []) ++ heldBlocks after contexts') :=
  heldBlocks_append same (inst :: after) (context :: contexts')

theorem heldBlocks_none (unused : liveCount instances = 0) (contexts : List ContextBlocks) :
    heldBlocks instances contexts = [] := by
  induction instances generalizing contexts with
  | nil => rfl
  | cons inst instances ih =>
    have dead := List.countP_eq_zero.mp unused inst List.mem_cons_self
    have rest : liveCount instances = 0 :=
      List.countP_eq_zero.mpr fun other member =>
        List.countP_eq_zero.mp unused other (List.mem_cons_of_mem inst member)
    cases contexts with
    | nil => rfl
    | cons context contexts =>
      have own : heldBlocks (inst :: instances) (context :: contexts) =
          (if inst.live then context.all else []) ++ heldBlocks instances contexts := rfl
      rw [own, if_neg dead, ih rest, List.append_nil]

/-- The heap is that of the contexts of the live instances and of the global. -/
structure Allocated (s : State) (memory : Memory) : Prop where
  aligned : memory.contexts.length = s.instances.length
  global : memory.kafkaGlobal.isSome = s.world.kafkaGlobal.isSome
  owns : memory.Owns (memory.held s.instances)

/-- The context of the instance at a position. -/
theorem Allocated.split {before after : List Instance} {inst : Instance} (allocated : Allocated s memory)
    (split : s.instances = before ++ inst :: after) :
    ∃ contexts context contexts', memory.contexts = contexts ++ context :: contexts' ∧
      before.length = contexts.length ∧ memory.contexts[before.length]? = some context := by
  have bound : before.length < memory.contexts.length := by
    rw [allocated.aligned, split]
    simp
  refine ⟨memory.contexts.take before.length, memory.contexts[before.length],
    memory.contexts.drop (before.length + 1), ?_, ?_, List.getElem?_eq_getElem bound⟩
  · rw [← List.drop_eq_getElem_cons bound, List.take_append_drop]
  · rw [List.length_take]
    omega

namespace Allocated
variable {s : State} {memory : Memory} {before after : List Instance} {inst inst' : Instance} {world : World}

theorem present (allocated : Allocated s memory) (present : s.world.kafkaGlobal = some g) :
    ∃ global, memory.kafkaGlobal = some global := by
  have same := allocated.global
  rw [present] at same
  exact Option.isSome_iff_exists.mp same

theorem init (allocated : Allocated s memory) (userdb : Bool) (live : inst.live = true)
    (made : world.kafkaGlobal = some g) : Allocated ⟨world, s.instances ++ [inst]⟩ (memory.init userdb) := by
  obtain ⟨context, global, contexts, found, owns⟩ := Memory.Owns.init allocated.owns userdb
  have own : heldBlocks [inst] [context] = context.all := by simp [heldBlocks, live]
  constructor
  · simp [contexts, allocated.aligned]
  · rw [found, made]
    rfl
  · rw [Memory.held, contexts, heldBlocks_append allocated.aligned.symm, own, found]
    exact owns

/-- A callback of a live instance follows only pointers to what is allocated. -/
theorem callback (allocated : Allocated s memory) (split : s.instances = before ++ inst :: after)
    (live : inst.live = true) (present : s.world.kafkaGlobal = some g) :
    ∃ context, memory.contexts[before.length]? = some context ∧ context.all ⊆ memory.held s.instances ∧
      (memory.callback context).Owns (memory.held s.instances) := by
  obtain ⟨contexts, context, contexts', parts, same, found⟩ := allocated.split split
  obtain ⟨global, shared⟩ := allocated.present present
  have own : context.all ⊆ memory.held s.instances := by
    rw [Memory.held, split, parts, heldBlocks_split same, if_pos live]
    intro block member
    simp [member]
  refine ⟨context, found, own, allocated.owns.callback shared ?_ own⟩
  rw [Memory.held, shared]
  exact List.subset_append_right _ _

/-- Where one instance takes the place of another that is as live. -/
theorem process (allocated : Allocated s memory) (split : s.instances = before ++ inst :: after)
    (live : inst.live = true) (live' : inst'.live = true) (present : s.world.kafkaGlobal = some g)
    (kept : world.kafkaGlobal = some g') :
    ∃ context, memory.contexts[before.length]? = some context ∧
      Allocated ⟨world, before ++ inst' :: after⟩ (memory.callback context) := by
  obtain ⟨context, found, -, owns⟩ := allocated.callback split live present
  obtain ⟨contexts, _, contexts', parts, same, -⟩ := allocated.split split
  obtain ⟨frame, shared⟩ := memory.callback_frame context
  refine ⟨context, found, ?_, ?_, ?_⟩
  · rw [frame, allocated.aligned, split]
    simp
  · rw [shared, allocated.global, present, kept]
    rfl
  · have held : memory.held (before ++ inst' :: after) = memory.held s.instances := by
      rw [Memory.held, Memory.held, split, parts, heldBlocks_split same, heldBlocks_split same, live, live']
    rw [← held, Memory.held] at owns
    rw [Memory.held, frame, shared]
    exact owns

theorem deinit (allocated : Allocated s memory) (split : s.instances = before ++ inst :: after)
    (live : inst.live = true) (dead : inst'.live = false) (present : s.world.kafkaGlobal = some g)
    (kept : world.kafkaGlobal = some g') :
    Allocated ⟨world, before ++ inst' :: after⟩ (memory.deinit before.length) := by
  obtain ⟨context, found, -, owns⟩ := allocated.callback split live present
  obtain ⟨contexts, context', contexts', parts, same, found'⟩ := allocated.split split
  obtain rfl := Option.some.inj (found.symm.trans found')
  obtain ⟨frame, shared⟩ := memory.callback_frame context
  have apart : (memory.held s.instances).Perm (context.all ++ memory.held (before ++ inst' :: after)) := by
    rw [Memory.held, Memory.held, split, parts, heldBlocks_split same, heldBlocks_split same, live, dead]
    simpa using List.perm_append_comm_assoc _ _ _
  simp only [Memory.deinit, found]
  constructor
  · rw [Memory.iFree, Memory.act, Memory.iFree, Memory.act, Memory.iFree, Memory.act, frame,
      allocated.aligned, split]
    simp
  · have same : memory.kafkaGlobal.isSome = world.kafkaGlobal.isSome := by
      rw [allocated.global, present, kept]
      rfl
    rw [← same, ← shared]
    rfl
  · have ready : (memory.callback context).Owns (context.all ++ memory.held (before ++ inst' :: after)) :=
      owns.perm apart
    have freed := ready.freeContext
    rw [Memory.held, ← frame, ← shared] at freed
    exact freed

theorem cleanup (allocated : Allocated s memory) (present : s.world.kafkaGlobal = some g) :
    ∃ global, memory.kafkaGlobal = some global ∧
      (memory.follow (some global.self)).Owns (memory.held s.instances) := by
  obtain ⟨global, shared⟩ := allocated.present present
  refine ⟨global, shared, allocated.owns.follow ?_⟩
  rw [Memory.held, shared]
  exact List.mem_append_right _ (by simp [GlobalBlocks.all])

theorem external (allocated : Allocated s memory) (effect : Effect env s op t) (isExternal : op.external = true)
    (session : Session) (same : session.driver = s) : Allocated t (memory.update env session (.driver op)) := by
  subst same
  cases effect with
  | init => exact allocated.init _ rfl rfl
  | initGlobal => contradiction
  | onInstance _ _ _ works => cases op <;> contradiction
  | @deinit g i ctx kafka before after inst present split live position =>
    subst position
    exact allocated.deinit split live rfl present rfl
  | kept used =>
    simp only [Memory.update, Memory.cleanup]
    cases found : memory.kafkaGlobal with
    | none => exact allocated
    | some global =>
      have there : session.driver.world.kafkaGlobal.isSome = true := by rw [← allocated.global, found]; rfl
      obtain ⟨g, present⟩ := Option.isSome_iff_exists.mp there
      obtain ⟨global', found', owns⟩ := allocated.cleanup present
      obtain rfl := Option.some.inj (found.symm.trans found')
      have positive : ¬ session.driver.world.refcount ≤ 0 := by
        have counted := used g present
        simp only [World.refcount, present]
        omega
      simp only [if_neg positive]
      exact ⟨allocated.aligned, allocated.global, owns⟩
  | @cleanup g present unused =>
    obtain ⟨global, found, owns⟩ := allocated.cleanup present
    have zero : session.driver.world.refcount ≤ 0 := by
      simpa only [World.refcount, present] using unused
    simp only [Memory.update, Memory.cleanup, found, if_pos zero]
    refine ⟨allocated.aligned, rfl, ?_⟩
    have split : (memory.held session.driver.instances).Perm
        (global.all ++ heldBlocks session.driver.instances memory.contexts) := by
      rw [Memory.held, found]
      exact List.perm_append_comm
    have ready : (memory.follow (some global.self)).Owns
        (global.all ++ heldBlocks session.driver.instances memory.contexts) := owns.perm split
    have freed := ready.freeGlobal
    rw [← List.append_nil (heldBlocks session.driver.instances memory.contexts)] at freed
    exact freed

theorem step {s t : Session} (allocated : Allocated s.driver memory)
    (effect : SessionEffect env registry s op t) :
    Allocated t.driver (memory.update env s op) := by
  cases effect with
  | driver external permitted done =>
    exact allocated.external (exec_effect permitted done) external s rfl
  | create | beginTxn | endTxn => exact allocated
  | @process dtxn target ctx kafka before after inst g _ _ _ _ split position live present processed =>
    let world : World := ⟨some kafka.global, kafka.trace⟩
    let inst' : Instance := { inst with ctx }
    have kept : world.kafkaGlobal = some kafka.global := rfl
    have live' : inst'.live = true := live
    obtain ⟨context, found, done⟩ := allocated.process split live live' present kept
    rw [position] at found
    simp only [Memory.update, found]
    exact done

end Allocated

/-- The driver uses its part of the heap as it should. -/
structure HeapSafe (s : Session) (memory : Memory) : Prop where
  /-- A pointer that is followed is not NULL, and what it points to is allocated. -/
  safe : blocks.Safe memory.log
  /-- Only what is allocated is freed. -/
  frees : Always blocks.ReleasesLive memory.log
  /-- What has been allocated is in use, or has been freed once. -/
  once : ∀ block, .alloc block ∈ memory.log →
    blocks.releases block memory.log = if block ∈ memory.held s.driver.instances then 0 else 1
  used : (blocks.live memory.log).Perm (memory.held s.driver.instances)
  released : liveCount s.driver.instances = 0 → s.driver.world.kafkaGlobal = none → blocks.live memory.log = []

theorem run_allocated
    (run : Run ((sessions env registry before).monitor Memory.start (Memory.update env)) ops p) :
    Allocated p.1.driver p.2 := by
  refine run.monitor_invariant (P := fun s memory => Allocated s.driver memory) ?_ ?_
  · rintro s rfl
    exact ⟨rfl, rfl, .nil⟩
  · exact fun _ s op t memory _ allocated step => allocated.step (session_effect step)

/-- In every run, each block of the heap that the driver allocates is freed at most once and
not used afterwards; what is allocated are the strings of the contexts of live instances
and of the global; and nothing is left when there are neither. -/
theorem sessions_heapSafe
    (run : Run ((sessions env registry before).monitor Memory.start (Memory.update env)) ops (s, memory)) :
    HeapSafe s memory := by
  obtain ⟨-, global, owns⟩ := run_allocated run
  refine ⟨owns.safe, owns.orderly, ?_, owns.live, ?_⟩
  · intro block allocated
    exact owns.once ⟨_, allocated, rfl⟩
  · intro unused gone
    have missing : memory.kafkaGlobal = none := by
      rw [gone] at global
      simpa using global
    have nothing : memory.held s.driver.instances = [] := by
      rw [Memory.held, heldBlocks_none unused, missing]
      rfl
    have live := owns.live
    rw [nothing] at live
    exact live.eq_nil

namespace Sample

/-- Two instances, of which one has userdb fields, a message, and the end of both. -/
def twoInstances : List SessionOp :=
  [.driver (.init userdbConfig user), .driver (initUser user), .create user, .beginTxn 0 0,
    .process ⟨0, 0, user⟩ (.msg (msg [flagsclear])), .endTxn ⟨0, 0, user⟩, .driver .cleanup,
    .driver (.deinit 0), .driver (.deinit 1), .driver .cleanup]

end Sample

theorem sessions_heapSafe_two : ∃ s memory,
    Run ((sessions Sample.carolEnv Sample.registry fun _ => 1).monitor Memory.start
      (Memory.update Sample.carolEnv)) Sample.twoInstances (s, memory) ∧
    memory.contexts.map (fun context => context.userdbJson.isSome) = [true, false] ∧
    blocks.live memory.log = [] ∧ HeapSafe s memory := by
  have initial : ((sessions Sample.carolEnv Sample.registry fun _ => 1).monitor Memory.start
      (Memory.update Sample.carolEnv)).initial (Session.start fun _ => 1, Memory.start) := ⟨rfl, rfl⟩
  obtain ⟨⟨s, memory⟩, run, checked⟩ : ∃ p,
      Run ((sessions Sample.carolEnv Sample.registry fun _ => 1).monitor Memory.start
        (Memory.update Sample.carolEnv)) Sample.twoInstances p ∧
      decide (p.2.contexts.map (fun context => context.userdbJson.isSome) = [true, false] ∧
        blocks.live p.2.log = []) = true :=
    replay_reaches (monitorNext_sound (Session.next_sound _ _ _)) initial _ (by decide +kernel)
  obtain ⟨userdb, freed⟩ := of_decide_eq_true checked
  exact ⟨s, memory, run, userdb, freed, sessions_heapSafe run⟩

end PushNotificationKafka
