import Maru.Framework.Dict
import Mathlib.Data.Nat.Find

/-!
# Abuse limits

`enforce_abuse_limit` of `identity/services.py`: each call for a flow and a subject counts in the
bucket of its window, and one call too many blocks the bucket. What a run answers depends on how
many calls came before in the same bucket (`getElem?_outcomes`): the first `ABUSE_LIMIT` calls are
allowed, the next one exceeds the limit, all later ones are blocked. The block is kept in the bucket
of its window, though it is longer than a window, so it holds until it has elapsed exactly if no
call of a later window comes before that (`staysBlocked_iff`).

An instant is a number of microseconds, and a subject is a flow with a digest.
-/

namespace Maru.Identity

def abuseWindow : Nat := 15 * 60

def abuseLimit : Nat := 8

def microsPerSecond : Nat := 1000000

def abuseBlock : Nat := 60 * 60 * microsPerSecond

/-- A call: its flow and subject, and the instant that `timezone.now()` gives it. -/
structure AbuseCall where
  flow : String
  subjectDigest : String
  now : Nat
deriving DecidableEq

/-- `IdentityAbuseBucket`, without its key. -/
structure IdentityAbuseBucket where
  attemptCount : Nat := 0
  blockedUntil : Option Nat := none
deriving DecidableEq

/-- The unique key of a bucket: flow, subject and start of the window. -/
abbrev BucketKey : Type := String × String × Nat

abbrev BucketStore : Type := List (BucketKey × IdentityAbuseBucket)

/-- `window_started_at`: the whole seconds since the last start of a window are taken off,
then the microseconds. -/
def windowStart (now : Nat) : Nat :=
  let epoch := now / microsPerSecond
  let started := now - epoch % abuseWindow * microsPerSecond
  started - started % microsPerSecond

def AbuseCall.key (call : AbuseCall) : BucketKey := (call.flow, call.subjectDigest, windowStart call.now)

/-- `bucket.blocked_until and bucket.blocked_until > now` -/
def IdentityAbuseBucket.blockedAt (bucket : IdentityAbuseBucket) (now : Nat) : Bool :=
  bucket.blockedUntil.any fun deadline => now < deadline

/-- One more attempt. -/
def IdentityAbuseBucket.attempted (bucket : IdentityAbuseBucket) (now : Nat) : IdentityAbuseBucket where
  attemptCount := bucket.attemptCount + 1
  blockedUntil := if bucket.attemptCount + 1 > abuseLimit then some (now + abuseBlock) else bucket.blockedUntil

/-- How a call ends. The last two are the same error, `identity_rate_limited`. -/
inductive AbuseOutcome
  | allowed
  /-- The limit is exceeded, and the bucket saved with a block. -/
  | exceeded
  /-- The bucket is blocked already. -/
  | blocked
deriving DecidableEq

/-- `enforce_abuse_limit` -/
def enforceAbuseLimit (store : BucketStore) (call : AbuseCall) : BucketStore × AbuseOutcome :=
  let bucket := (Dict.get? store call.key).getD {}
  if bucket.blockedAt call.now then (store, .blocked)
  else
    let saved := bucket.attempted call.now
    (Dict.update call.key {} (fun _ => saved) store, if saved.blockedAt call.now then .exceeded else .allowed)

/-- What the calls of a run answer. -/
def outcomes (store : BucketStore) : List AbuseCall → List AbuseOutcome
  | [] => []
  | call :: calls => (enforceAbuseLimit store call).2 :: outcomes (enforceAbuseLimit store call).1 calls

/-! ## Windows -/

theorem windowStart_eq (now : Nat) : windowStart now = now / (abuseWindow * microsPerSecond) *
    (abuseWindow * microsPerSecond) := by
  simp only [windowStart, abuseWindow, microsPerSecond]
  omega

theorem windowStart_mono {now now' : Nat} (h : now ≤ now') : windowStart now ≤ windowStart now' := by
  rw [windowStart_eq, windowStart_eq]
  exact Nat.mul_le_mul_right _ (Nat.div_le_div_right h)

/-- A block that is set in a window lasts beyond the window. -/
theorem lt_block_of_window {now now' : Nat} (h : windowStart now = windowStart now') : now' < now + abuseBlock := by
  simp only [windowStart_eq, abuseWindow, microsPerSecond, abuseBlock] at *
  omega

theorem abuseBlock_lasts {now : Nat} : now < now + abuseBlock := by
  simp only [abuseBlock, microsPerSecond]
  omega

/-! ## What a bucket holds -/

/-- The instants of the calls of a bucket. -/
def instantsOf (key : BucketKey) (calls : List AbuseCall) : List Nat := (calls.filter (·.key = key)).map (·.now)

/-- The bucket after calls at these instants. -/
def bucketAfter (instants : List Nat) : IdentityAbuseBucket where
  attemptCount := min instants.length (abuseLimit + 1)
  blockedUntil := instants[abuseLimit]?.map (· + abuseBlock)

/-- Each bucket says what has been called in its window. -/
def Records (store : BucketStore) (past : List AbuseCall) : Prop :=
  ∀ key, (Dict.get? store key).getD {} = bucketAfter (instantsOf key past)

/-- What a call answers after `count` others in its bucket. -/
def outcomeAfter (count : Nat) : AbuseOutcome :=
  if count < abuseLimit then .allowed else if count = abuseLimit then .exceeded else .blocked

theorem records_nil : Records [] [] := fun _ => rfl

theorem instantsOf_append (key : BucketKey) (past : List AbuseCall) (call : AbuseCall) :
    instantsOf key (past ++ [call]) = instantsOf key past ++ if call.key = key then [call.now] else [] := by
  unfold instantsOf
  rw [List.filter_append, List.map_append]
  by_cases same : call.key = key <;> simp [same]

@[simp] theorem AbuseCall.key_window (call : AbuseCall) : call.key.2.2 = windowStart call.now := rfl

theorem mem_instantsOf {key : BucketKey} {past : List AbuseCall} {now : Nat}
    (h : now ∈ instantsOf key past) : windowStart now = key.2.2 := by
  obtain ⟨call, hc, rfl⟩ := List.mem_map.mp h
  have same : call.key = key := by simpa using (List.mem_filter.mp hc).2
  rw [← same]
  rfl

/-- Calls within the limit do not block their bucket. -/
theorem bucketAfter_le {instants : List Nat} (h : instants.length ≤ abuseLimit) :
    bucketAfter instants = { attemptCount := instants.length, blockedUntil := none } := by
  have few : min instants.length (abuseLimit + 1) = instants.length := by omega
  rw [bucketAfter, few, List.getElem?_eq_none h, Option.map_none]

/-- Calls beyond the limit leave the bucket as the one that exceeded it. -/
theorem bucketAfter_append {instants : List Nat} (h : abuseLimit < instants.length) (now : Nat) :
    bucketAfter (instants ++ [now]) = bucketAfter instants := by
  have many : min (instants ++ [now]).length (abuseLimit + 1) = min instants.length (abuseLimit + 1) := by
    rw [List.length_append]
    omega
  rw [bucketAfter, bucketAfter, many, List.getElem?_append_left h]

/-- The attempt that a bucket which is not blocked takes. -/
theorem attempted_bucketAfter {instants : List Nat} (h : instants.length ≤ abuseLimit) (now : Nat) :
    (bucketAfter instants).attempted now = bucketAfter (instants ++ [now]) := by
  rw [bucketAfter_le h, IdentityAbuseBucket.attempted]
  by_cases last : instants.length = abuseLimit
  · have count : min (instants ++ [now]).length (abuseLimit + 1) = instants.length + 1 := by
      rw [List.length_append, List.length_singleton]
      omega
    have ninth : (instants ++ [now])[abuseLimit]? = some now := by
      rw [← last, List.getElem?_concat_length]
    rw [bucketAfter, count, ninth, if_pos (by dsimp only; omega), Option.map_some]
  · have fits : (instants ++ [now]).length ≤ abuseLimit := by
      rw [List.length_append, List.length_singleton]
      omega
    rw [bucketAfter_le fits, if_neg (by dsimp only; omega), List.length_append, List.length_singleton]

/-- A bucket with more calls than the limit is blocked for the rest of its window: the block was set
in the window, so it has not elapsed. -/
theorem blocked_bucketAfter {instants : List Nat} (h : abuseLimit < instants.length) {now : Nat}
    (window : ∀ instant ∈ instants,
      windowStart instant = windowStart now) : (bucketAfter instants).blockedAt now = true := by
  have within := lt_block_of_window (window _ (List.getElem_mem h))
  rw [bucketAfter, IdentityAbuseBucket.blockedAt, List.getElem?_eq_getElem h, Option.map_some, Option.any_some]
  exact decide_eq_true within

theorem free_bucketAfter {instants : List Nat} (h : instants.length ≤ abuseLimit) (now : Nat) :
    (bucketAfter instants).blockedAt now = false := by
  rw [bucketAfter_le h]
  rfl

/-- The call that exceeds the limit blocks the bucket. -/
theorem blocked_of_exceeded {instants : List Nat} (h : instants.length = abuseLimit) (now : Nat) :
    (bucketAfter (instants ++ [now])).blockedAt now = true := by
  have ninth : (instants ++ [now])[abuseLimit]? = some now := by
    rw [← h, List.getElem?_concat_length]
  rw [bucketAfter, IdentityAbuseBucket.blockedAt, ninth, Option.map_some, Option.any_some]
  exact decide_eq_true abuseBlock_lasts

/-- One call: what it answers, and what the buckets then say. -/
theorem enforceAbuseLimit_records {store : BucketStore} {past : List AbuseCall}
    (h : Records store past) (call : AbuseCall) :
    (enforceAbuseLimit store call).2 = outcomeAfter (instantsOf call.key past).length ∧
      Records (enforceAbuseLimit store call).1 (past ++ [call]) := by
  obtain ⟨instants, hinstants⟩ : ∃ instants, instants = instantsOf call.key past := ⟨_, rfl⟩
  have own : (Dict.get? store call.key).getD {} = bucketAfter instants := by rw [h call.key, hinstants]
  have window : ∀ instant ∈ instants, windowStart instant = windowStart call.now := by
    rw [hinstants]
    exact fun instant hi => mem_instantsOf hi
  unfold enforceAbuseLimit
  rw [own, ← hinstants]
  by_cases exceeded : abuseLimit < instants.length
  · rw [if_pos (blocked_bucketAfter exceeded window)]
    refine ⟨?_, fun key => ?_⟩
    · rw [outcomeAfter, if_neg (by omega), if_neg (by omega)]
    · rw [instantsOf_append]
      split_ifs with same
      · rw [← same, ← hinstants, bucketAfter_append exceeded, own]
      · rw [List.append_nil]
        exact h key
  · have within : instants.length ≤ abuseLimit := by omega
    rw [if_neg (by rw [free_bucketAfter within]; decide), attempted_bucketAfter within]
    dsimp only
    refine ⟨?_, fun key => ?_⟩
    · by_cases last : instants.length = abuseLimit
      · rw [if_pos (blocked_of_exceeded last _), outcomeAfter, if_neg (by omega), if_pos last]
      · have fits : (instants ++ [call.now]).length ≤ abuseLimit := by
          rw [List.length_append, List.length_singleton]
          omega
        rw [if_neg (by rw [free_bucketAfter fits]; decide), outcomeAfter, if_pos (by omega)]
    · rw [Dict.get?_update, instantsOf_append]
      by_cases same : key = call.key
      · rw [if_pos same, if_pos same.symm, same, ← hinstants, Option.getD_some]
      · rw [if_neg same, if_neg (Ne.symm same), List.append_nil]
        exact h key

/-- A run: each call answers by how many calls of the run came before it in its bucket. -/
theorem getElem?_outcomes {store : BucketStore} {past calls : List AbuseCall}
    (h : Records store past) (i : Nat) : (outcomes store calls)[i]? =
      calls[i]?.map fun call => outcomeAfter (instantsOf call.key (past ++ calls.take i)).length := by
  induction calls generalizing store past i with
  | nil => simp [outcomes]
  | cons call calls ih =>
    obtain ⟨answer, records⟩ := enforceAbuseLimit_records h call
    rw [outcomes]
    cases i with
    | zero => simp [answer]
    | succ i =>
      rw [List.getElem?_cons_succ, List.getElem?_cons_succ, ih records, List.take_succ_cons,
        List.append_assoc, List.singleton_append]

/-! ## What holds of every run -/

/-- The calls of a run with what they answer. -/
def answersOf (calls : List AbuseCall) : List (AbuseCall × AbuseOutcome) := calls.zip (outcomes [] calls)

/-- In no window are more calls allowed for a subject than the limit. -/
def LimitedPerWindow (calls : List AbuseCall) : Prop :=
  ∀ key, ((answersOf calls).countP fun answer => answer.1.key = key ∧ answer.2 = .allowed) ≤ abuseLimit

/-- What the calls for a subject answer is what they answer without all other calls. -/
def IndependentSubjects (calls : List AbuseCall) : Prop :=
  ∀ flow subjectDigest, (answersOf calls).filter (fun answer => answer.1.flow = flow ∧
    answer.1.subjectDigest = subjectDigest) =
    answersOf (calls.filter fun call => call.flow = flow ∧ call.subjectDigest = subjectDigest)

/-- `later` comes after `call` in the run, for the same subject. -/
structure Follows (calls : List AbuseCall) (i j : Nat) (call later : AbuseCall) : Prop where
  lt : i < j
  first : calls[i]? = some call
  second : calls[j]? = some later
  flow : later.flow = call.flow
  subjectDigest : later.subjectDigest = call.subjectDigest

/-- After a call that exceeded the limit no call for its subject is allowed before
the block has elapsed. -/
def StaysBlocked (calls : List AbuseCall) : Prop :=
  ∀ i j call later, Follows calls i j call later → (outcomes [] calls)[i]? = some .exceeded →
    later.now < call.now + abuseBlock → (outcomes [] calls)[j]? ≠ some .allowed

/-- After a call with as many before it in its window as the limit allows, no call for its subject
comes in another window before the block has elapsed. -/
def NoCallInLaterWindow (calls : List AbuseCall) : Prop :=
  ∀ i j call later, Follows calls i j call later → (instantsOf call.key (calls.take i)).length =
    abuseLimit → windowStart later.now ≠ windowStart call.now → call.now + abuseBlock ≤ later.now

theorem length_instantsOf_append (key : BucketKey) (past : List AbuseCall) (call : AbuseCall) :
    (instantsOf key (past ++ [call])).length = (instantsOf key past).length + if call.key = key then 1 else 0 := by
  rw [instantsOf_append, List.length_append]
  split_ifs <;> rfl

theorem outcomeAfter_eq_allowed {count : Nat} : outcomeAfter count = .allowed ↔ count < abuseLimit := by
  unfold outcomeAfter
  split_ifs <;> simp_all

theorem outcomeAfter_eq_exceeded {count : Nat} : outcomeAfter count = .exceeded ↔ count = abuseLimit := by
  unfold outcomeAfter
  split_ifs with below <;> simp_all
  omega

/-- The calls that are allowed in a window are its first ones. -/
theorem countP_allowed {store : BucketStore} {past calls : List AbuseCall} (h : Records store past) (key : BucketKey) :
    ((calls.zip (outcomes store calls)).countP fun answer => answer.1.key = key ∧ answer.2 = .allowed) +
      min (instantsOf key past).length abuseLimit = min (instantsOf key (past ++ calls)).length abuseLimit := by
  induction calls generalizing store past with
  | nil => simp [outcomes]
  | cons call calls ih =>
    obtain ⟨answer, records⟩ := enforceAbuseLimit_records h call
    have rest := ih records
    have more := length_instantsOf_append key past call
    rw [List.append_assoc, List.singleton_append] at rest
    rw [outcomes, List.zip_cons_cons, List.countP_cons, ← rest, more, answer]
    simp only [decide_eq_true_eq, outcomeAfter_eq_allowed]
    by_cases same : call.key = key
    · rw [same]
      simp only [true_and, if_true]
      split_ifs <;> omega
    · simp only [same, false_and, if_false]
      omega

theorem limitedPerWindow (calls : List AbuseCall) : LimitedPerWindow calls := by
  intro key
  have counted := @countP_allowed [] [] calls records_nil key
  unfold answersOf
  omega

theorem instantsOf_filter {flow subjectDigest : String} (window : Nat) (past : List AbuseCall) :
    instantsOf (flow, subjectDigest, window) (past.filter fun call => call.flow = flow ∧
      call.subjectDigest = subjectDigest) = instantsOf (flow, subjectDigest, window) past := by
  unfold instantsOf
  rw [List.filter_filter]
  congr 2
  funext call
  simp only [AbuseCall.key, Prod.mk.injEq]
  by_cases hf : call.flow = flow <;> by_cases hs : call.subjectDigest = subjectDigest <;> simp [hf, hs]

/-- With the calls of other subjects or without them, the calls of a subject answer the same. -/
theorem filter_answers {store store' : BucketStore} {past : List AbuseCall}
    {flow subjectDigest : String} (h : Records store past)
    (h' : Records store' (past.filter fun call => call.flow = flow ∧ call.subjectDigest = subjectDigest))
    (calls : List AbuseCall) :
    (calls.zip (outcomes store calls)).filter (fun answer => answer.1.flow = flow ∧
      answer.1.subjectDigest = subjectDigest) =
      (calls.filter fun call => call.flow = flow ∧ call.subjectDigest = subjectDigest).zip
        (outcomes store' (calls.filter fun call => call.flow = flow ∧ call.subjectDigest = subjectDigest)) := by
  induction calls generalizing store store' past with
  | nil => rfl
  | cons call calls ih =>
    obtain ⟨answer, records⟩ := enforceAbuseLimit_records h call
    rw [outcomes, List.zip_cons_cons]
    by_cases own : call.flow = flow ∧ call.subjectDigest = subjectDigest
    · obtain ⟨answer', records'⟩ := enforceAbuseLimit_records h' call
      have grown : (past ++ [call]).filter (fun call => call.flow = flow ∧ call.subjectDigest = subjectDigest) =
          past.filter (fun call => call.flow = flow ∧ call.subjectDigest = subjectDigest) ++ [call] := by
        rw [List.filter_append, List.filter_singleton]
        simp [own]
      have same : (enforceAbuseLimit store call).2 = (enforceAbuseLimit store' call).2 := by
        obtain ⟨rfl, rfl⟩ := own
        rw [answer, answer', AbuseCall.key, instantsOf_filter]
      rw [List.filter_cons_of_pos (by simpa using own), List.filter_cons_of_pos (by simpa using own), outcomes,
        List.zip_cons_cons, same, ih records (grown ▸ records')]
    · have kept : (past ++ [call]).filter (fun call => call.flow = flow ∧ call.subjectDigest = subjectDigest) =
          past.filter (fun call => call.flow = flow ∧ call.subjectDigest = subjectDigest) := by
        rw [List.filter_append, List.filter_singleton]
        simp [own]
      rw [List.filter_cons_of_neg (by simpa using own), List.filter_cons_of_neg (by simpa using own)]
      exact ih records (kept ▸ h')

theorem independentSubjects (calls : List AbuseCall) : IndependentSubjects calls :=
  fun _ _ => filter_answers records_nil records_nil calls

/-! ## When the block lasts -/

theorem outcome_at {calls : List AbuseCall} {i : Nat} {call : AbuseCall} (h : calls[i]? = some call) :
    (outcomes [] calls)[i]? = some (outcomeAfter (instantsOf call.key (calls.take i)).length) := by
  rw [getElem?_outcomes records_nil, h, Option.map_some, List.nil_append]

theorem Follows.key {calls : List AbuseCall} {i j : Nat} {call later : AbuseCall} (h : Follows calls i j call later)
    (window : windowStart later.now = windowStart call.now) : later.key = call.key := by
  rw [AbuseCall.key, AbuseCall.key, h.flow, h.subjectDigest, window]

/-- In the window of the call that exceeded the limit, a later call is not allowed. -/
theorem Follows.blocked_in_window {calls : List AbuseCall} {i j : Nat} {call later : AbuseCall}
    (h : Follows calls i j call later) (full : (instantsOf call.key (calls.take i)).length = abuseLimit)
    (window : windowStart later.now = windowStart call.now) : (outcomes [] calls)[j]? ≠ some .allowed := by
  have fewer : (instantsOf call.key (calls.take i)).length ≤ (instantsOf later.key (calls.take j)).length := by
    rw [h.key window]
    have sub : (calls.take i).Sublist (calls.take j) := (List.take_prefix_take_left (Nat.le_of_lt h.lt)).sublist
    exact ((sub.filter _).map _).length_le
  rw [outcome_at h.second]
  intro allowed
  have below := outcomeAfter_eq_allowed.mp (Option.some.inj allowed)
  omega

/-- The first call of a bucket is allowed. -/
theorem exists_first {calls : List AbuseCall} {j : Nat} {later : AbuseCall} (h : calls[j]? = some later) :
    ∃ (k : Nat) (first : AbuseCall), k ≤ j ∧ calls[k]? = some first ∧ first.key = later.key ∧
      (outcomes [] calls)[k]? = some .allowed := by
  have some_k : ∃ k, ∃ first : AbuseCall, calls[k]? = some first ∧ first.key = later.key := ⟨j, later, h, rfl⟩
  obtain ⟨first, at_k, key⟩ := Nat.find_spec some_k
  refine ⟨Nat.find some_k, first, Nat.find_min' some_k ⟨later, h, rfl⟩, at_k, key, ?_⟩
  have none_before : instantsOf first.key (calls.take (Nat.find some_k)) = [] := by
    unfold instantsOf
    rw [List.map_eq_nil_iff, List.filter_eq_nil_iff]
    intro call hc same
    obtain ⟨m, hm⟩ := List.mem_iff_getElem?.mp hc
    have lt : m < Nat.find some_k := by
      by_contra ge
      rw [List.getElem?_take_eq_none (Nat.le_of_not_lt ge)] at hm
      cases hm
    rw [List.getElem?_take_of_lt lt] at hm
    exact Nat.find_min some_k lt ⟨call, hm, (of_decide_eq_true same).trans key⟩
  rw [outcome_at at_k, none_before]
  rfl

theorem staysBlocked_iff {calls : List AbuseCall} (clock : calls.Pairwise fun a b => a.now ≤ b.now) :
    StaysBlocked calls ↔ NoCallInLaterWindow calls := by
  constructor
  · intro stays i j call later follows full window
    by_contra early
    obtain ⟨k, first, hk, at_k, key, allowed⟩ := exists_first follows.second
    obtain ⟨flow, digest, same⟩ : first.flow = later.flow ∧ first.subjectDigest =
        later.subjectDigest ∧ windowStart first.now = windowStart later.now := by
      simpa only [AbuseCall.key, Prod.mk.injEq] using key
    have ordered {m n : Nat} {a b : AbuseCall} (le : m ≤ n) (ha : calls[m]? = some a)
        (hb : calls[n]? = some b) : a.now ≤ b.now := by
      rcases Nat.lt_or_eq_of_le le with lt | rfl
      · obtain ⟨hm, rfl⟩ := List.getElem?_eq_some_iff.mp ha
        obtain ⟨hn, rfl⟩ := List.getElem?_eq_some_iff.mp hb
        exact List.pairwise_iff_getElem.mp clock m n hm hn lt
      · rw [ha] at hb
        exact Nat.le_of_eq (congrArg AbuseCall.now (Option.some.inj hb))
    -- The window of the later call starts after that of the call, and so does its first call.
    have lt : i < k := by
      by_contra ge
      have windows := windowStart_mono (ordered (Nat.le_of_not_lt ge) at_k follows.first)
      have later_windows := windowStart_mono (ordered (Nat.le_of_lt follows.lt) follows.first follows.second)
      omega
    have before := ordered hk at_k follows.second
    refine stays i k call first ⟨lt, follows.first, at_k, flow.trans follows.flow,
      digest.trans follows.subjectDigest⟩ ?_ (by omega) allowed
    rw [outcome_at follows.first, full]
    rfl
  · intro condition i j call later follows exceeded early
    rw [outcome_at follows.first] at exceeded
    have full := outcomeAfter_eq_exceeded.mp (Option.some.inj exceeded)
    by_cases window : windowStart later.now = windowStart call.now
    · exact follows.blocked_in_window full window
    · have elapsed := condition i j call later follows full window
      omega

/-- Every run keeps to the limit in each window and tells subjects apart; a block lasts until it has
elapsed exactly in the runs where no call comes in a later window before that. -/
theorem run_enforceAbuseLimit (calls : List AbuseCall) (clock : calls.Pairwise fun a b => a.now ≤ b.now) :
    (LimitedPerWindow calls ∧ IndependentSubjects calls ∧ StaysBlocked calls) ↔ NoCallInLaterWindow calls := by
  rw [← staysBlocked_iff clock]
  exact ⟨fun h => h.2.2, fun h => ⟨limitedPerWindow calls, independentSubjects calls, h⟩⟩

/-! ## Nine attempts at the end of a window -/

def signIn (second : Nat) : AbuseCall := ⟨"sign_in", "e", second * microsPerSecond⟩

/-- Nine attempts in the last second of a window, and one in the first second of the next. -/
def tenAttempts : List AbuseCall := List.replicate 9 (signIn 1700000099) ++ [signIn 1700000100]

theorem tenAttempts_iff : (LimitedPerWindow tenAttempts ∧
    IndependentSubjects tenAttempts ∧ StaysBlocked tenAttempts) ↔ NoCallInLaterWindow tenAttempts :=
  run_enforceAbuseLimit tenAttempts (by decide +kernel)

/-- The tenth attempt is allowed one second after the ninth was refused for an hour. -/
theorem tenAttempts_allowed : ¬ (LimitedPerWindow tenAttempts ∧ IndependentSubjects tenAttempts ∧
    StaysBlocked tenAttempts) := by
  rintro ⟨-, -, stays⟩
  have answers : outcomes [] tenAttempts = List.replicate 8 .allowed ++ [.exceeded, .allowed] := by decide +kernel
  refine stays 8 9 (signIn 1700000099) (signIn 1700000100) ⟨by omega, rfl, rfl, rfl, rfl⟩ ?_ (by decide) ?_
  · rw [answers]
    rfl
  · rw [answers]
    rfl

end Maru.Identity
