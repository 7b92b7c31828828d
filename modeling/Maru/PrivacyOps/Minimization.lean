import Maru.Framework.Lists
import Maru.Framework.Machine
import Maru.Framework.Uuid

/-!
# Minimization of a registration profile

`minimize_registration_profile` of `privacyops/services.py` with
`dispose_storage_if_unreferenced` of `registration/media.py`. A call looks for a receipt, blanks
the profile and its fursuits in a transaction that learns the names of their files, deletes the
files one by one, and writes the receipt last. Between any two of these steps other calls go on,
and the call may end: `World.exec` is one step of one call.

The names are known only to the call whose transaction blanked them. In a run whose transactions all
learn the names (`LearnsNames`), a receipt means what it says (`run_minimization`).
-/

namespace Maru.PrivacyOps

inductive MediaReviewStatus
  | none
  | pending
  | approved
  | rejected
deriving DecidableEq

structure AttendeeFursuit where
  id : Uuid
  profileId : Uuid
  name : String
  species : String := ""
  isActive : Bool := true
  photo : String := ""
  photoStatus : MediaReviewStatus := .none
  photoReviewedById : Option Uuid := none
  photoReviewedAt : Option Nat := none
  photoReviewNote : String := ""
  photoReusedFromId : Option Uuid := none
deriving DecidableEq

structure AttendeeRegistrationProfile where
  id : Uuid
  organizationId : Uuid
  editionId : Uuid
  aggregateVersion : Nat := 1
  realName : String
  /-- Year, month and day. -/
  dateOfBirth : Nat × Nat × Nat
  addressLine1 : String
  addressLine2 : String := ""
  locality : String
  postalCode : String
  region : String
  countryCode : String
  emergencyContactName : String
  emergencyContactPhone : String
  phoneNumber : String
  telegramHandle : String := ""
  pronounCode : String := "they_them"
  otherPronouns : String := ""
  pronouns : String := "they/them"
  bio : String := ""
  spokenLanguageCodes : List String := []
  bringsFursuits : Bool := false
  profilePhoto : String := ""
  profilePhotoStatus : MediaReviewStatus := .none
  profilePhotoReviewedById : Option Uuid := none
  profilePhotoReviewedAt : Option Nat := none
  profilePhotoReviewNote : String := ""
  profilePhotoReusedFromId : Option Uuid := none
  directoryVisible : Bool := false
  directoryCountryCode : String := ""
  directoryConsentVersion : String := ""
  directoryConsentAt : Option Nat := none
deriving DecidableEq

inductive Disposition
  | delete
  | minimize
  | retain
deriving DecidableEq

structure RetentionPolicy where
  id : Uuid
  organizationId : Uuid
  dataCategory : String
  retentionDays : Nat
  disposition : Disposition
  active : Bool
deriving DecidableEq

/-- One file of `downstream_receipts`. -/
structure DownstreamReceipt where
  storageName : String
  deleted : Bool
deriving DecidableEq

structure DisposalReceipt where
  organizationId : Uuid
  editionId : Uuid
  policyId : Uuid
  targetType : String := "registration.attendee_profile"
  targetId : Uuid
  disposition : Disposition := .minimize
  appliedById : Uuid
  safeResultCode : String := "registration_profile_minimized"
  downstreamReceipts : List DownstreamReceipt
deriving DecidableEq

/-! ## The rows and the files -/

structure Store where
  profiles : List AttendeeRegistrationProfile
  fursuits : List AttendeeFursuit
  /-- The day on which an edition ends. -/
  endsOn : Uuid → Int
  policies : List RetentionPolicy
  receipts : List DisposalReceipt
  /-- The names in the default storage. -/
  files : List String

def AttendeeFursuit.minimized (fursuit : AttendeeFursuit) : AttendeeFursuit :=
  { fursuit with
    name := "[minimized]"
    species := ""
    isActive := false
    photo := ""
    photoStatus := .none
    photoReviewedById := none
    photoReviewedAt := none
    photoReviewNote := ""
    photoReusedFromId := none }

def AttendeeRegistrationProfile.minimized (profile : AttendeeRegistrationProfile) : AttendeeRegistrationProfile :=
  { profile with
    aggregateVersion := profile.aggregateVersion + 1
    realName := "[minimized]"
    dateOfBirth := (1900, 1, 1)
    addressLine1 := "[minimized]"
    addressLine2 := ""
    locality := "[minimized]"
    postalCode := "[minimized]"
    region := "[minimized]"
    countryCode := "ZZ"
    emergencyContactName := "[minimized]"
    emergencyContactPhone := "0000000"
    phoneNumber := "0000000"
    telegramHandle := ""
    pronounCode := "they_them"
    otherPronouns := ""
    pronouns := "they/them"
    bio := ""
    spokenLanguageCodes := []
    bringsFursuits := false
    profilePhoto := ""
    profilePhotoStatus := .none
    profilePhotoReviewedById := none
    profilePhotoReviewedAt := none
    profilePhotoReviewNote := ""
    profilePhotoReusedFromId := none
    directoryVisible := false
    directoryCountryCode := ""
    directoryConsentVersion := ""
    directoryConsentAt := none }

/-- `storage_names` of a profile: its own photo and those of its fursuits. -/
def Store.storageNames (store : Store) (profile : AttendeeRegistrationProfile) : List String :=
  (if profile.profilePhoto = "" then [] else [profile.profilePhoto]) ++
    ((store.fursuits.filter fun fursuit => fursuit.profileId = profile.id ∧ fursuit.photo ≠ "").map (·.photo))

/-- The two updates of the transaction. -/
def Store.blanked (store : Store) (profileId : Uuid) : Store :=
  { store with
    profiles := store.profiles.map fun profile => if profile.id = profileId then profile.minimized else profile
    fursuits := store.fursuits.map fun fursuit => if fursuit.profileId = profileId then fursuit.minimized else fursuit }

/-- `DisposalReceipt.objects.create(…)` -/
def Store.recorded (store : Store) (receipt : DisposalReceipt) : Store :=
  { store with receipts := store.receipts ++ [receipt] }

/-- Some profile or fursuit has the file as its photo. -/
def Store.referenced (store : Store) (storageName : String) : Bool :=
  store.profiles.any (·.profilePhoto = storageName) || store.fursuits.any (·.photo = storageName)

/-- `dispose_storage_if_unreferenced`: what is left, and whether the file has been deleted. -/
def Store.disposed (store : Store) (storageName : String) : Store × Bool :=
  if storageName = "" ∨ store.referenced storageName = true ∨ storageName ∉ store.files then (store, false)
  else ({ store with files := store.files.filter (· ≠ storageName) }, true)

/-! ## Calls -/

structure MinimizationRequest where
  actorId : Uuid
  organizationId : Uuid
  editionId : Uuid
  profileId : Uuid
  policyId : Uuid
  today : Int
  /-- What the policy decides on the actor. -/
  allowed : Bool
deriving DecidableEq

/-- How far a call has come. -/
inductive Progress
  /-- There was no receipt, and the policy has been read. -/
  | admitted (policy : RetentionPolicy)
  /-- The transaction is committed; the files still to be disposed of, and what became of the
  others. -/
  | minimized (policy : RetentionPolicy) (remaining : List String) (downstream : List DownstreamReceipt)
  /-- The receipt is written. -/
  | recorded (receipt : DisposalReceipt)
deriving DecidableEq

structure RunningCall where
  request : MinimizationRequest
  progress : Progress
deriving DecidableEq

/-- The rows, the files and the calls that are running. -/
structure World extends Store where
  running : Nat → Option RunningCall

/-- One step of a call. -/
inductive Event
  | start (call : Nat) (request : MinimizationRequest)
  | transaction (call : Nat)
  | disposal (call : Nat)
  | receipt (call : Nat)
  | audit (call : Nat)
  /-- The call fails or the process ends. -/
  | failure (call : Nat)

inductive Answer
  /-- The call goes on. -/
  | continues
  | returned (receipt : DisposalReceipt)
  | denied
  | policyMissing
  | profileMissing
  | deadlineNotReached
  /-- `ValidationError` of `privacy_disposal_target_unique`. -/
  | receiptExists
  | failed
deriving DecidableEq

/-- The receipts of a policy and a profile. -/
def Store.receiptsOf (store : Store) (policyId profileId : Uuid) : List DisposalReceipt :=
  store.receipts.filter fun receipt =>
    receipt.policyId = policyId ∧ receipt.targetType = "registration.attendee_profile" ∧ receipt.targetId = profileId

/-- `RetentionPolicy.objects.get(…)` -/
def Store.policy? (store : Store) (request : MinimizationRequest) : Option RetentionPolicy :=
  store.policies.find? fun policy => policy.id = request.policyId ∧ policy.organizationId = request.organizationId ∧
    policy.dataCategory = "registration_profile" ∧ policy.disposition = .minimize ∧ policy.active = true

/-- `AttendeeRegistrationProfile.objects.get(…)` -/
def Store.profile? (store : Store) (request : MinimizationRequest) : Option AttendeeRegistrationProfile :=
  store.profiles.find? fun profile => profile.id = request.profileId ∧
    profile.organizationId = request.organizationId ∧ profile.editionId = request.editionId

def World.with (world : World) (store : Store) (call : Nat) (state : Option RunningCall) : World :=
  { store with running := Function.update world.running call state }

/-- The receipt of a call. -/
def MinimizationRequest.receipt (request : MinimizationRequest) (policy : RetentionPolicy)
    (downstreamReceipts : List DownstreamReceipt) : DisposalReceipt where
  organizationId := request.organizationId
  editionId := request.editionId
  policyId := policy.id
  targetId := request.profileId
  appliedById := request.actorId
  downstreamReceipts

/-- The first reads of a call. -/
def World.start (world : World) (call : Nat) (request : MinimizationRequest) : World × Answer :=
  if request.allowed = false then (world, .denied)
  else
    match (world.receiptsOf request.policyId request.profileId).head? with
    | some receipt => (world, .returned receipt)
    | none =>
      match world.policy? request with
      | none => (world, .policyMissing)
      | some policy => (world.with world.toStore call (some ⟨request, .admitted policy⟩), .continues)

/-- The profile transaction. -/
def World.transaction (world : World) (call : Nat) (request : MinimizationRequest)
    (policy : RetentionPolicy) : World × Answer :=
  match world.profile? request with
  | none => (world.with world.toStore call none, .profileMissing)
  | some profile =>
    if world.endsOn profile.editionId > request.today - policy.retentionDays then
      (world.with world.toStore call none, .deadlineNotReached)
    else
      (world.with (world.blanked profile.id) call
        (some ⟨request, .minimized policy (sortBy id (world.storageNames profile).dedup) []⟩), .continues)

/-- `World.exec` is a step of a call that can take it. -/
def World.exec (world : World) : Event → Except Unit (World × Answer)
  | .start call request => if (world.running call).isSome then .error () else .ok (world.start call request)
  | .transaction call =>
    match world.running call with
    | some ⟨request, .admitted policy⟩ => .ok (world.transaction call request policy)
    | _ => .error ()
  | .disposal call =>
    match world.running call with
    | some ⟨request, .minimized policy (name :: remaining) downstream⟩ =>
      let (store, deleted) := world.disposed name
      .ok (world.with store call
        (some ⟨request, .minimized policy remaining (downstream ++ [⟨name, deleted⟩])⟩), .continues)
    | _ => .error ()
  | .receipt call =>
    match world.running call with
    | some ⟨request, .minimized policy [] downstream⟩ =>
      if world.receiptsOf policy.id request.profileId ≠ [] then .ok (world.with world.toStore call none, .receiptExists)
      else
        let receipt := request.receipt policy downstream
        .ok (world.with (world.recorded receipt) call (some ⟨request, .recorded receipt⟩), .continues)
    | _ => .error ()
  | .audit call =>
    match world.running call with
    | some ⟨_, .recorded receipt⟩ => .ok (world.with world.toStore call none, .returned receipt)
    | _ => .error ()
  | .failure call =>
    if (world.running call).isSome then .ok (world.with world.toStore call none, .failed) else .error ()

def calls : Machine World Event Answer Unit := ⟨World.exec⟩

/-! ## What a receipt means -/

/-- Nothing of the person is left but what every minimized profile has. -/
def AttendeeRegistrationProfile.IsMinimized (profile : AttendeeRegistrationProfile) : Prop :=
  profile.minimized = { profile with aggregateVersion := profile.aggregateVersion + 1 }

def AttendeeFursuit.IsMinimized (fursuit : AttendeeFursuit) : Prop := fursuit.minimized = fursuit

section

variable (policyId profileId : Uuid)

/-- Another profile, or a fursuit of another one, has the file as its photo. -/
def Store.ReferencedElsewhere (store : Store) (name : String) : Prop :=
  (∃ profile ∈ store.profiles, profile.id ≠ profileId ∧ profile.profilePhoto = name) ∨
    ∃ fursuit ∈ store.fursuits, fursuit.profileId ≠ profileId ∧ fursuit.photo = name

/-- The file has been deleted, or is still needed. -/
def Store.Settled (store : Store) (name : String) : Prop := name ∉ store.files ∨ store.ReferencedElsewhere profileId name

/-- What a receipt means, in a state reached from `first`. -/
structure ReceiptLaw (first now : World) : Prop where
  profiles : ∀ receipt ∈ now.receiptsOf policyId profileId, ∀ profile ∈ now.profiles,
    profile.id = profileId → profile.IsMinimized
  fursuits : ∀ receipt ∈ now.receiptsOf policyId profileId, ∀ fursuit ∈ now.fursuits,
    fursuit.profileId = profileId → fursuit.IsMinimized
  files : ∀ receipt ∈ now.receiptsOf policyId profileId, ∀ profile ∈ first.profiles,
    profile.id = profileId → ∀ name ∈ first.storageNames profile,
      name ∈ receipt.downstreamReceipts.map (·.storageName) ∧ now.Settled profileId name
  unique : (now.receiptsOf policyId profileId).length ≤ 1
  returned : ∀ receipt ∈ now.receiptsOf policyId profileId, ∀ call request, now.running call =
    none → request.allowed = true → request.policyId = policyId → request.profileId = profileId →
      now.exec (.start call request) = .ok (now, .returned receipt)

/-- The calls that start are for the profile, under the policy. -/
def Event.For : Event → Prop
  | .start _ request => request.policyId = policyId ∧ request.profileId = profileId
  | _ => True

/-- The call has committed its transaction. -/
def Progress.Late : Progress → Prop
  | .admitted _ => False
  | _ => True

/-- A profile transaction learns the names of the files: it finds the profile as
`first` has it; or there never was a file to learn of, and there is neither a receipt
nor a call past its transaction. -/
def LearnsNames (first now : World) : Event → Prop
  | .transaction call => ∀ request policy, now.running call = some ⟨request, .admitted policy⟩ →
      now.profile? request = first.profile? request ∨
        ((∀ profile ∈ first.profiles, profile.id = profileId → first.storageNames profile = []) ∧
          now.receiptsOf policyId profileId = [] ∧
          ∀ call' state, now.running call' = some state → ¬ state.progress.Late)
  | _ => True

/-! ## The rows after the transaction -/

variable {policyId profileId}

theorem mem_blanked_profiles {store : Store} {profile : AttendeeRegistrationProfile}
    (h : profile ∈ (store.blanked profileId).profiles) : ∃ before ∈ store.profiles, profile.id =
      before.id ∧ profile = if before.id = profileId then before.minimized else before := by
  obtain ⟨before, hb, rfl⟩ := List.mem_map.mp h
  refine ⟨before, hb, ?_, rfl⟩
  split_ifs <;> rfl

theorem blanked_profiles_minimized {store : Store} {profile : AttendeeRegistrationProfile}
    (h : profile ∈ (store.blanked profileId).profiles) (own : profile.id = profileId) :
    profile.IsMinimized ∧ profile.profilePhoto = "" := by
  obtain ⟨before, _, id, rfl⟩ := mem_blanked_profiles h
  rw [if_pos (id.symm.trans own)]
  exact ⟨rfl, rfl⟩

theorem blanked_fursuits_minimized {store : Store} {fursuit : AttendeeFursuit}
    (h : fursuit ∈ (store.blanked profileId).fursuits) (own : fursuit.profileId = profileId) :
    fursuit.IsMinimized ∧ fursuit.photo = "" := by
  obtain ⟨before, _, rfl⟩ := List.mem_map.mp h
  by_cases mine : before.profileId = profileId
  · rw [if_pos mine]
    exact ⟨rfl, rfl⟩
  · rw [if_neg mine] at own
    exact absurd own mine

theorem storageNames_ne {store : Store} {profile : AttendeeRegistrationProfile} {name : String}
    (h : name ∈ store.storageNames profile) : name ≠ "" := by
  unfold Store.storageNames at h
  rcases List.mem_append.mp h with h | h
  · split_ifs at h with empty
    · cases h
    · rwa [List.mem_singleton.mp h]
  · obtain ⟨fursuit, hf, rfl⟩ := List.mem_map.mp h
    have := (List.mem_filter.mp hf).2
    simp only [ne_eq, decide_eq_true_eq] at this
    exact this.2

/-- A file that some photo still refers to after the transaction is another profile's. -/
theorem referencedElsewhere_of_referenced {store : Store} {name : String} (nonempty : name ≠ "")
    (profiles : ∀ profile ∈ store.profiles, profile.id = profileId → profile.profilePhoto = "")
    (fursuits : ∀ fursuit ∈ store.fursuits, fursuit.profileId = profileId → fursuit.photo = "")
    (h : store.referenced name = true) : store.ReferencedElsewhere profileId name := by
  unfold Store.referenced at h
  rcases (Bool.or_eq_true _ _).mp h with h | h
  · obtain ⟨profile, hp, same⟩ := List.any_eq_true.mp h
    have photo : profile.profilePhoto = name := of_decide_eq_true same
    exact .inl ⟨profile, hp, fun own => nonempty (photo.symm.trans (profiles profile hp own)), photo⟩
  · obtain ⟨fursuit, hf, same⟩ := List.any_eq_true.mp h
    have photo : fursuit.photo = name := of_decide_eq_true same
    exact .inr ⟨fursuit, hf, fun own => nonempty (photo.symm.trans (fursuits fursuit hf own)), photo⟩

theorem disposed_rows (store : Store) (name : String) : (store.disposed name).1.profiles = store.profiles ∧
    (store.disposed name).1.fursuits = store.fursuits ∧ (store.disposed name).1.receipts = store.receipts ∧
    (store.disposed name).1.files ⊆ store.files := by
  unfold Store.disposed
  split_ifs
  · exact ⟨rfl, rfl, rfl, List.Subset.refl _⟩
  · exact ⟨rfl, rfl, rfl, List.filter_subset_self _⟩

/-- What is settled stays settled while files are only deleted. -/
theorem Settled.mono {store store' : Store} {name : String} (h : store.Settled profileId name)
    (profiles : store'.profiles = store.profiles) (fursuits : store'.fursuits = store.fursuits)
    (files : store'.files ⊆ store.files) : store'.Settled profileId name := by
  refine h.imp (fun gone mem => gone (files mem)) ?_
  unfold Store.ReferencedElsewhere
  rw [profiles, fursuits]
  exact id

theorem disposed_settled {store : Store} {name : String} (nonempty : name ≠ "")
    (profiles : ∀ profile ∈ store.profiles, profile.id = profileId → profile.profilePhoto = "")
    (fursuits : ∀ fursuit ∈ store.fursuits, fursuit.profileId = profileId → fursuit.photo = "") :
    (store.disposed name).1.Settled profileId name := by
  unfold Store.disposed
  split_ifs with kept
  · rcases kept with empty | referenced | absent
    · exact absurd empty nonempty
    · exact .inr (referencedElsewhere_of_referenced nonempty profiles fursuits referenced)
    · exact .inl absent
  · exact .inl (by simp)

theorem storageNames_of_fursuits {store store' : Store} (h : store'.fursuits = store.fursuits)
    (profile : AttendeeRegistrationProfile) : store'.storageNames profile = store.storageNames profile := by
  unfold Store.storageNames
  rw [h]

/-- A minimized profile has no file. -/
theorem storageNames_of_blanked {store : Store} {profile : AttendeeRegistrationProfile}
    (photo : profile.profilePhoto = "")
    (fursuits : ∀ fursuit ∈ store.fursuits, fursuit.profileId = profile.id → fursuit.photo = "") :
    store.storageNames profile = [] := by
  unfold Store.storageNames
  rw [if_pos photo, List.nil_append, List.map_eq_nil_iff, List.filter_eq_nil_iff]
  intro fursuit hf own
  have own := of_decide_eq_true own
  exact own.2 (fursuits fursuit hf own.1)

theorem mem_of_profile? {store : Store} {request : MinimizationRequest} {profile : AttendeeRegistrationProfile}
    (h : store.profile? request = some profile) : profile ∈ store.profiles ∧ profile.id = request.profileId := by
  have found := List.find?_some h
  exact ⟨List.mem_of_find?_eq_some h, (of_decide_eq_true found).1⟩

/-! ## The invariant -/

/-- The call is under the policy. -/
def Progress.Under (policyId : Uuid) : Progress → Prop
  | .admitted policy => policy.id = policyId
  | .minimized policy _ _ => policy.id = policyId
  | .recorded _ => True

variable (policyId profileId) in
/-- No transaction has been committed. -/
structure Untouched (first now : World) : Prop where
  profiles : now.profiles = first.profiles
  fursuits : now.fursuits = first.fursuits
  receipts : now.receiptsOf policyId profileId = []
  early : ∀ call state, now.running call = some state → ¬ state.progress.Late

/-- The names the transaction has learned, in the order of their disposal. -/
def namesOf (first : World) (profile : AttendeeRegistrationProfile) : List String :=
  sortBy id (first.storageNames profile).dedup

variable (policyId profileId) in
/-- A transaction has been committed, and at most one call is past it: it disposes of the names one
after the other, and its receipt names them all. -/
structure Blanked (first now : World) (profile : AttendeeRegistrationProfile) : Prop where
  known : profile ∈ first.profiles ∧ profile.id = profileId
  profiles : ∀ after ∈ now.profiles, after.id = profileId →
    after.IsMinimized ∧ after.profilePhoto = "" ∧ profile.aggregateVersion < after.aggregateVersion
  fursuits : ∀ fursuit ∈ now.fursuits, fursuit.profileId = profileId → fursuit.IsMinimized ∧ fursuit.photo = ""
  single : ∀ call state call' state', now.running call = some state →
    now.running call' = some state' → state.progress.Late → state'.progress.Late → call = call'
  working : ∀ call request policy remaining downstream,
    now.running call = some ⟨request, .minimized policy remaining downstream⟩ →
      now.receiptsOf policyId profileId = [] ∧
        downstream.map (·.storageName) ++ remaining = namesOf first profile ∧
        ∀ name ∈ downstream.map (·.storageName), now.Settled profileId name
  recorded : ∀ call request receipt, now.running call = some ⟨request, .recorded receipt⟩ →
    receipt ∈ now.receiptsOf policyId profileId
  receipts : ∀ receipt ∈ now.receiptsOf policyId profileId,
    receipt.downstreamReceipts.map (·.storageName) = namesOf first profile ∧
      ∀ name ∈ namesOf first profile, now.Settled profileId name
  unique : (now.receiptsOf policyId profileId).length ≤ 1

variable (policyId profileId) in
structure MinimizationInv (first now : World) : Prop where
  requests : ∀ call state, now.running call = some state →
    state.request.profileId = profileId ∧ state.progress.Under policyId
  phase : Untouched policyId profileId first now ∨ ∃ profile, Blanked policyId profileId first now profile

theorem mem_namesOf {first : World} {profile : AttendeeRegistrationProfile} {name : String} :
    name ∈ namesOf first profile ↔ name ∈ first.storageNames profile := by
  rw [namesOf, (sortBy_perm _ _).mem_iff, List.mem_dedup]

/-- The law follows from the invariant. -/
theorem MinimizationInv.law {first now : World} (distinct : (first.profiles.map (·.id)).Nodup)
    (h : MinimizationInv policyId profileId first now) : ReceiptLaw policyId profileId first now := by
  have returned (unique : (now.receiptsOf policyId profileId).length ≤ 1) : ∀ receipt ∈ now.receiptsOf
    policyId profileId,
      ∀ call request, now.running call = none → request.allowed = true → request.policyId = policyId →
        request.profileId = profileId → now.exec (.start call request) = .ok (now, .returned receipt) := by
    intro receipt hr call request idle allowed policy profile
    have one : now.receiptsOf policyId profileId = [receipt] := by
      obtain ⟨other, all⟩ := List.length_eq_one_iff.mp (Nat.le_antisymm unique (List.length_pos_of_mem hr))
      rw [all] at hr ⊢
      rw [List.mem_singleton.mp hr]
    simp [World.exec, World.start, idle, allowed, policy, profile, one]
  rcases h.phase with fresh | ⟨profile, blanked⟩
  · have noReceipt (receipt : DisposalReceipt) (hr : receipt ∈ now.receiptsOf policyId profileId) : False := by
      rw [fresh.receipts] at hr
      cases hr
    exact {
      profiles := fun receipt hr => (noReceipt receipt hr).elim
      fursuits := fun receipt hr => (noReceipt receipt hr).elim
      files := fun receipt hr => (noReceipt receipt hr).elim
      unique := by simp [fresh.receipts]
      returned := returned (by simp [fresh.receipts]) }
  · exact {
      profiles := fun _ _ after ha own => (blanked.profiles after ha own).1
      fursuits := fun _ _ fursuit hf own => (blanked.fursuits fursuit hf own).1
      files := by
        intro receipt hr before hb own name hn
        obtain rfl : before = profile :=
          List.inj_on_of_nodup_map distinct hb blanked.known.1 (own.trans blanked.known.2.symm)
        have names := blanked.receipts receipt hr
        rw [names.1]
        exact ⟨mem_namesOf.mpr hn, names.2 name (mem_namesOf.mpr hn)⟩
      unique := blanked.unique
      returned := returned blanked.unique }

/-! ## Steps -/

theorem running_with (world : World) (store : Store) (call : Nat) (state : Option RunningCall) (call' : Nat) :
    (world.with store call state).running call' = if call' = call then state else world.running call' := by
  simp [World.with, Function.update_apply]

theorem running_with_some {world : World} {store : Store} {call call' : Nat} {state : Option RunningCall}
    {state' : RunningCall} (h : (world.with store call state).running call' = some state') :
    call' = call ∧ state = some state' ∨ call' ≠ call ∧ world.running call' = some state' := by
  rw [running_with] at h
  split_ifs at h with same
  · exact .inl ⟨same, h⟩
  · exact .inr ⟨same, h⟩

/-- A call that ends or only has been admitted changes nothing. -/
theorem Untouched.with_early {first now : World} (h : Untouched policyId profileId first now)
    {call : Nat} {state : Option RunningCall} (early : ∀ s, state = some s → ¬ s.progress.Late) :
    Untouched policyId profileId first (now.with now.toStore call state) where
  profiles := h.profiles
  fursuits := h.fursuits
  receipts := h.receipts
  early := by
    intro call' state' running
    rcases running_with_some running with ⟨_, same⟩ | ⟨_, before⟩
    · exact early state' same
    · exact h.early call' state' before

/-- Among the calls past their transaction after a step, those of another
number were there before. -/
theorem Blanked.single_with {first now : World} {profile : AttendeeRegistrationProfile}
    (h : Blanked policyId profileId first now profile) {call : Nat} {store : Store} {state : Option RunningCall}
    (late : ∀ s, state = some s → s.progress.Late → ∃ s', now.running call = some s' ∧ s'.progress.Late) :
    ∀ call₁ state₁ call₂ state₂, (now.with store call state).running call₁ = some state₁ →
      (now.with store call state).running call₂ = some state₂ → state₁.progress.Late →
        state₂.progress.Late → call₁ = call₂ := by
  have before (call₁ : Nat) (state₁ : RunningCall) (running : (now.with store call state).running call₁ = some state₁)
      (l : state₁.progress.Late) : ∃ s, now.running call₁ = some s ∧ s.progress.Late := by
    rcases running_with_some running with ⟨rfl, same⟩ | ⟨_, old⟩
    · exact late state₁ same l
    · exact ⟨state₁, old, l⟩
  intro call₁ state₁ call₂ state₂ running₁ running₂ late₁ late₂
  obtain ⟨s₁, old₁, l₁⟩ := before call₁ state₁ running₁ late₁
  obtain ⟨s₂, old₂, l₂⟩ := before call₂ state₂ running₂ late₂
  exact h.single call₁ s₁ call₂ s₂ old₁ old₂ l₁ l₂

theorem Blanked.with_early {first now : World} {profile : AttendeeRegistrationProfile}
    (h : Blanked policyId profileId first now profile) {call : Nat} {state : Option RunningCall}
    (early : ∀ s, state = some s → ¬ s.progress.Late) :
    Blanked policyId profileId first (now.with now.toStore call state) profile where
  known := h.known
  profiles := h.profiles
  fursuits := h.fursuits
  single := h.single_with fun s same l => absurd l (early s same)
  working := by
    intro call' request policy remaining downstream running
    rcases running_with_some running with ⟨_, same⟩ | ⟨_, before⟩
    · exact absurd trivial (early _ same)
    · exact h.working call' request policy remaining downstream before
  recorded := by
    intro call' request receipt running
    rcases running_with_some running with ⟨_, same⟩ | ⟨_, before⟩
    · exact absurd trivial (early _ same)
    · exact h.recorded call' request receipt before
  receipts := h.receipts
  unique := h.unique

theorem MinimizationInv.with_early {first now : World} (h : MinimizationInv policyId profileId first now) {call : Nat}
    {state : Option RunningCall} (early : ∀ s, state = some s → ¬ s.progress.Late)
    (own : ∀ s, state = some s → s.request.profileId = profileId ∧ s.progress.Under policyId) :
    MinimizationInv policyId profileId first (now.with now.toStore call state) where
  requests := by
    intro call' state' running
    rcases running_with_some running with ⟨_, same⟩ | ⟨_, before⟩
    · exact own state' same
    · exact h.requests call' state' before
  phase := h.phase.imp (·.with_early early) fun ⟨profile, blanked⟩ => ⟨profile, blanked.with_early early⟩

theorem MinimizationInv.ended {first now : World} (h : MinimizationInv policyId profileId first now)
    (call : Nat) : MinimizationInv policyId profileId first (now.with now.toStore call none) :=
  h.with_early (fun _ same => nomatch same) fun _ same => nomatch same

/-- The rows after the transaction of a call that found the profile. -/
theorem blanked_rows {now : World} {before : AttendeeRegistrationProfile}
    (versions : ∀ profile ∈ now.profiles, profile.id = profileId → before.aggregateVersion ≤ profile.aggregateVersion) :
    (∀ after ∈ (now.blanked profileId).profiles, after.id = profileId →
      after.IsMinimized ∧ after.profilePhoto = "" ∧ before.aggregateVersion < after.aggregateVersion) ∧
    ∀ fursuit ∈ (now.blanked profileId).fursuits, fursuit.profileId = profileId →
      fursuit.IsMinimized ∧ fursuit.photo = "" := by
  refine ⟨fun after ha own => ?_, fun fursuit hf own => blanked_fursuits_minimized hf own⟩
  obtain ⟨minimized, photo⟩ := blanked_profiles_minimized ha own
  obtain ⟨found, hfound, same, rfl⟩ := mem_blanked_profiles ha
  have id := same.symm.trans own
  have version := versions found hfound id
  refine ⟨minimized, photo, ?_⟩
  rw [if_pos id]
  show before.aggregateVersion < found.aggregateVersion + 1
  omega

/-- A transaction without a call past one before it: the call has learned the names. -/
theorem Blanked.of_transaction {first now : World} {before profile : AttendeeRegistrationProfile}
    (known : before ∈ first.profiles ∧ before.id = profileId) (own : profile.id = profileId)
    (versions : ∀ other ∈ now.profiles, other.id = profileId → before.aggregateVersion ≤ other.aggregateVersion)
    (noReceipt : now.receiptsOf policyId profileId = [])
    (early : ∀ call state, now.running call = some state → ¬ state.progress.Late)
    (names : sortBy id (now.storageNames profile).dedup = namesOf first before) (call : Nat)
    (request : MinimizationRequest) (policy : RetentionPolicy) :
    Blanked policyId profileId first
      (now.with (now.blanked profile.id) call
        (some ⟨request, .minimized policy (sortBy id (now.storageNames profile).dedup) []⟩)) before := by
  obtain ⟨profiles, fursuits⟩ := blanked_rows versions
  rw [own, names]
  refine {
    known
    profiles
    fursuits
    single := ?_
    working := ?_
    recorded := ?_
    receipts := fun receipt hr => ?_
    unique := ?_ }
  · intro call₁ state₁ call₂ state₂ running₁ running₂ late₁ late₂
    rcases running_with_some running₁ with ⟨same₁, _⟩ | ⟨_, old⟩
    · rcases running_with_some running₂ with ⟨same₂, _⟩ | ⟨_, old⟩
      · exact same₁.trans same₂.symm
      · exact absurd late₂ (early call₂ state₂ old)
    · exact absurd late₁ (early call₁ state₁ old)
  · intro call' request' policy' remaining downstream running
    rcases running_with_some running with ⟨_, same⟩ | ⟨_, old⟩
    · cases same
      exact ⟨noReceipt, rfl, fun name hn => nomatch hn⟩
    · exact absurd trivial (early call' _ old)
  · intro call' request' receipt running
    rcases running_with_some running with ⟨_, same⟩ | ⟨_, old⟩
    · cases same
    · exact absurd trivial (early call' _ old)
  · replace hr : receipt ∈ now.receiptsOf policyId profileId := hr
    rw [noReceipt] at hr
    cases hr
  · show (now.receiptsOf policyId profileId).length ≤ 1
    simp [noReceipt]

/-- The transaction of a call that learns the names. -/
theorem MinimizationInv.transaction {first now : World} (h : MinimizationInv policyId profileId first now)
    (distinct : (first.profiles.map (·.id)).Nodup) {call : Nat} {request : MinimizationRequest}
      {policy : RetentionPolicy}
    (running : now.running call = some ⟨request, .admitted policy⟩)
    (learns : LearnsNames policyId profileId first now (.transaction call)) :
    MinimizationInv policyId profileId first (now.transaction call request policy).1 := by
  obtain ⟨mine, under⟩ := h.requests call _ running
  unfold World.transaction
  cases hp : now.profile? request with
  | none => exact h.ended call
  | some profile =>
    obtain ⟨found, id⟩ := mem_of_profile? hp
    have own : profile.id = profileId := id.trans mine
    dsimp only
    split_ifs with deadline
    · exact h.ended call
    constructor
    · intro call' state' running'
      rcases running_with_some running' with ⟨_, same⟩ | ⟨_, old⟩
      · cases same
        exact ⟨mine, under⟩
      · exact h.requests call' state' old
    right
    rcases h.phase with fresh | ⟨before, blanked⟩
    · have known : profile ∈ first.profiles := by rwa [← fresh.profiles]
      refine ⟨profile, .of_transaction ⟨known, own⟩ own (fun other ho same => ?_) fresh.receipts fresh.early ?_ _ _ _⟩
      · rw [fresh.profiles] at ho
        rw [List.inj_on_of_nodup_map distinct ho known (same.trans own.symm)]
      · rw [storageNames_of_fursuits fresh.fursuits, namesOf]
    · rcases learns request policy running with same | ⟨noFiles, noReceipt, early⟩
      · -- the profile is a later version than the one `first` has
        rw [hp] at same
        obtain ⟨old, _⟩ := mem_of_profile? same.symm
        have := (blanked.profiles profile found own).2.2
        rw [List.inj_on_of_nodup_map distinct old blanked.known.1 (own.trans blanked.known.2.symm)] at this
        omega
      · refine ⟨before, .of_transaction blanked.known own (fun other ho same => ?_) noReceipt early ?_ _ _ _⟩
        · have := (blanked.profiles other ho same).2.2
          omega
        · have names : now.storageNames profile = [] :=
            storageNames_of_blanked (blanked.profiles profile found own).2.1 fun fursuit hf same =>
              (blanked.fursuits fursuit hf (same.trans own)).2
          rw [names, namesOf, noFiles before blanked.known.1 blanked.known.2]

/-- The only call past its transaction disposes of the next file. -/
theorem Blanked.disposal {first now : World} {profile : AttendeeRegistrationProfile}
    (h : Blanked policyId profileId first now profile) {call : Nat} {request : MinimizationRequest}
    {policy : RetentionPolicy} {name : String} {remaining : List String} {downstream : List DownstreamReceipt}
    (running : now.running call = some ⟨request, .minimized policy (name :: remaining) downstream⟩) :
    Blanked policyId profileId first
      (now.with (now.disposed name).1 call
        (some ⟨request, .minimized policy remaining (downstream ++ [⟨name, (now.disposed name).2⟩])⟩)) profile := by
  obtain ⟨noReceipt, names, settled⟩ := h.working call request policy _ downstream running
  obtain ⟨profiles, fursuits, receipts, files⟩ := disposed_rows now.toStore name
  have same : (now.disposed name).1.receiptsOf policyId profileId = now.receiptsOf policyId profileId := by
    unfold Store.receiptsOf
    rw [receipts]
  have known : name ∈ namesOf first profile := by
    rw [← names]
    simp
  have nonempty : name ≠ "" := storageNames_ne (mem_namesOf.mp known)
  have other {call' : Nat} {state : RunningCall} (old : now.running call' = some state) (ne : call' ≠ call)
      (late : state.progress.Late) : False := ne (h.single call' state call _ old running late trivial)
  refine {
    known := h.known
    profiles := fun after ha => h.profiles after (by rwa [← profiles])
    fursuits := fun fursuit hf => h.fursuits fursuit (by rwa [← fursuits])
    single := h.single_with fun _ _ _ => ⟨_, running, trivial⟩
    working := ?_
    recorded := ?_
    receipts := fun receipt hr => ?_
    unique := ?_ }
  · intro call' request' policy' remaining' downstream' running'
    rcases running_with_some running' with ⟨_, here⟩ | ⟨ne, old⟩
    · cases here
      refine ⟨same.trans noReceipt, by simpa using names, fun file hf => ?_⟩
      rw [List.map_append, List.mem_append] at hf
      rcases hf with hf | hf
      · exact Settled.mono (settled file hf) profiles fursuits files
      · rw [List.mem_singleton.mp hf]
        exact disposed_settled nonempty (fun p hp own => (h.profiles p hp own).2.1) fun f hf own =>
          (h.fursuits f hf own).2
    · exact (other old ne trivial).elim
  · intro call' request' receipt running'
    rcases running_with_some running' with ⟨_, here⟩ | ⟨ne, old⟩
    · cases here
    · exact (other old ne trivial).elim
  · replace hr : receipt ∈ (now.disposed name).1.receiptsOf policyId profileId := hr
    rw [same, noReceipt] at hr
    cases hr
  · show ((now.disposed name).1.receiptsOf policyId profileId).length ≤ 1
    rw [same]
    exact h.unique

/-- The call that has disposed of every file writes the only receipt. -/
theorem Blanked.receipt {first now : World} {profile : AttendeeRegistrationProfile}
    (h : Blanked policyId profileId first now profile) {call : Nat} {request : MinimizationRequest}
    {policy : RetentionPolicy} {downstream : List DownstreamReceipt}
    (running : now.running call = some ⟨request, .minimized policy [] downstream⟩)
    (mine : request.profileId = profileId) (under : policy.id = policyId) :
    Blanked policyId profileId first
      (now.with (now.recorded (request.receipt policy downstream)) call
        (some ⟨request, .recorded (request.receipt policy downstream)⟩)) profile := by
  obtain ⟨noReceipt, names, settled⟩ := h.working call request policy _ downstream running
  rw [List.append_nil] at names
  have one : (now.recorded (request.receipt policy downstream)).receiptsOf policyId profileId =
      [request.receipt policy downstream] := by
    unfold Store.receiptsOf Store.recorded at *
    rw [List.filter_append, noReceipt, List.nil_append]
    simp [MinimizationRequest.receipt, mine, under]
  have other {call' : Nat} {state : RunningCall} (old : now.running call' = some state) (ne : call' ≠ call)
      (late : state.progress.Late) : False := ne (h.single call' state call _ old running late trivial)
  refine {
    known := h.known
    profiles := h.profiles
    fursuits := h.fursuits
    single := h.single_with fun _ _ _ => ⟨_, running, trivial⟩
    working := ?_
    recorded := ?_
    receipts := fun receipt hr => ?_
    unique := ?_ }
  · intro call' request' policy' remaining' downstream' running'
    rcases running_with_some running' with ⟨_, here⟩ | ⟨ne, old⟩
    · cases here
    · exact (other old ne trivial).elim
  · intro call' request' receipt running'
    rcases running_with_some running' with ⟨_, here⟩ | ⟨ne, old⟩
    · cases here
      show request.receipt policy downstream ∈
        (now.recorded (request.receipt policy downstream)).receiptsOf policyId profileId
      rw [one]
      exact List.mem_singleton.mpr rfl
    · exact (other old ne trivial).elim
  · replace hr : receipt ∈ (now.recorded (request.receipt policy downstream)).receiptsOf policyId profileId := hr
    rw [one] at hr
    rw [List.mem_singleton.mp hr]
    exact ⟨names, fun name hn => settled name (by rwa [names])⟩
  · show ((now.recorded (request.receipt policy downstream)).receiptsOf policyId profileId).length ≤ 1
    rw [one, List.length_singleton]

/-- What an answer means: no call fails for a receipt that exists, and what is
returned is a receipt. -/
def AnswerLaw (policyId profileId : Uuid) (now : World) (answer : Answer) : Prop :=
  answer ≠ .receiptExists ∧ ∀ receipt, answer = .returned receipt → receipt ∈ now.receiptsOf policyId profileId

theorem answerLaw_of_other {now : World} {answer : Answer} (h : answer ≠ .receiptExists)
    (h' : ∀ receipt, answer ≠ .returned receipt) : AnswerLaw policyId profileId now answer :=
  ⟨h, fun receipt same => absurd same (h' receipt)⟩

variable (policyId profileId) in
/-- What a step keeps, and what its answer means. -/
structure Kept (first now after : World) (answer : Answer) : Prop where
  inv : MinimizationInv policyId profileId first after
  answer : AnswerLaw policyId profileId after answer
  receipts : ∀ receipt ∈ now.receiptsOf policyId profileId, receipt ∈ after.receiptsOf policyId profileId

theorem MinimizationInv.start {first now : World} (h : MinimizationInv policyId profileId first now) (call : Nat)
    {request : MinimizationRequest} (own : request.policyId = policyId ∧ request.profileId = profileId) :
    Kept policyId profileId first now (now.start call request).1 (now.start call request).2 := by
  unfold World.start
  split_ifs with denied
  · exact ⟨h, answerLaw_of_other nofun nofun, fun _ => id⟩
  rw [own.1, own.2]
  cases hr : (now.receiptsOf policyId profileId).head? with
  | some receipt =>
    refine ⟨h, ⟨nofun, fun receipt' same => ?_⟩, fun _ => id⟩
    cases same
    exact List.mem_of_mem_head? hr
  | none =>
    cases hp : now.policy? request with
    | none => exact ⟨h, answerLaw_of_other nofun nofun, fun _ => id⟩
    | some policy =>
      have under : policy.id = policyId := by
        have found := List.find?_some hp
        exact (of_decide_eq_true found).1.trans own.1
      refine ⟨h.with_early (fun s same => ?_) fun s same => ?_, answerLaw_of_other nofun nofun, fun _ => id⟩
      · cases same
        exact id
      · cases same
        exact ⟨own.2, under⟩

theorem transaction_answer (now : World) (call : Nat) (request : MinimizationRequest)
    (policy : RetentionPolicy) : (now.transaction call request policy).1.receipts = now.receipts ∧
      (now.transaction call request policy).2 ∈ [.continues, .profileMissing, .deadlineNotReached] := by
  unfold World.transaction
  cases now.profile? request with
  | none => exact ⟨rfl, by simp⟩
  | some profile =>
    dsimp only
    split_ifs
    · exact ⟨rfl, by simp⟩
    · exact ⟨rfl, by simp⟩

theorem receiptsOf_of_receipts {store store' : Store} (h : store'.receipts = store.receipts) :
    store'.receiptsOf policyId profileId = store.receiptsOf policyId profileId := by
  unfold Store.receiptsOf
  rw [h]

/-- A step keeps the invariant and the receipts, and its answer means what it says. -/
theorem MinimizationInv.exec {first now after : World} (h : MinimizationInv policyId profileId first now)
    (distinct : (first.profiles.map (·.id)).Nodup) {event : Event} {answer : Answer}
    (own : event.For policyId profileId) (learns : LearnsNames policyId profileId first now event)
    (step : now.exec event = .ok (after, answer)) : Kept policyId profileId first now after answer := by
  cases event with
  | start call request =>
    unfold World.exec at step
    dsimp only at step
    split_ifs at step with busy
    have kept := h.start call own
    rwa [Except.ok.inj step] at kept
  | transaction call =>
    unfold World.exec at step
    dsimp only at step
    split at step
    · rename_i request policy running
      have kept := h.transaction distinct running learns
      obtain ⟨receipts, other⟩ := transaction_answer now call request policy
      rw [Except.ok.inj step] at kept receipts other
      refine ⟨kept, answerLaw_of_other ?_ ?_, fun receipt hr => ?_⟩
      · rintro rfl
        simp at other
      · rintro receipt rfl
        simp at other
      · rwa [receiptsOf_of_receipts receipts]
    · cases step
  | disposal call =>
    unfold World.exec at step
    dsimp only at step
    split at step
    · rename_i request policy name remaining downstream running
      obtain ⟨rfl, rfl⟩ := Prod.mk.inj (Except.ok.inj step)
      rcases h.phase with fresh | ⟨profile, blanked⟩
      · exact absurd trivial (fresh.early call _ running)
      refine ⟨⟨fun call' state' running' => ?_, .inr ⟨profile, blanked.disposal running⟩⟩,
        answerLaw_of_other nofun nofun, fun receipt hr => ?_⟩
      · rcases running_with_some running' with ⟨_, here⟩ | ⟨_, old⟩
        · obtain ⟨mine, under⟩ := h.requests call _ running
          cases here
          exact ⟨mine, under⟩
        · exact h.requests call' state' old
      · show receipt ∈ (now.disposed name).1.receiptsOf policyId profileId
        rwa [receiptsOf_of_receipts (disposed_rows now.toStore name).2.2.1]
    · cases step
  | receipt call =>
    unfold World.exec at step
    dsimp only at step
    split at step
    · rename_i request policy downstream running
      rcases h.phase with fresh | ⟨profile, blanked⟩
      · exact absurd trivial (fresh.early call _ running)
      obtain ⟨mine, under⟩ := h.requests call _ running
      replace under : policy.id = policyId := under
      replace mine : request.profileId = profileId := mine
      have noReceipt := (blanked.working call request policy _ downstream running).1
      rw [under, mine, noReceipt, if_neg (fun ne => ne rfl)] at step
      obtain ⟨rfl, rfl⟩ := Prod.mk.inj (Except.ok.inj step)
      refine ⟨⟨fun call' state' running' => ?_, .inr ⟨profile, blanked.receipt running mine under⟩⟩,
        answerLaw_of_other nofun nofun, fun receipt hr => ?_⟩
      · rcases running_with_some running' with ⟨_, here⟩ | ⟨_, old⟩
        · cases here
          exact ⟨mine, trivial⟩
        · exact h.requests call' state' old
      · rw [noReceipt] at hr
        cases hr
    · cases step
  | audit call =>
    unfold World.exec at step
    dsimp only at step
    split at step
    · rename_i request receipt running
      obtain ⟨rfl, rfl⟩ := Prod.mk.inj (Except.ok.inj step)
      refine ⟨h.ended call, ⟨nofun, fun receipt' same => ?_⟩, fun _ => id⟩
      cases same
      rcases h.phase with fresh | ⟨profile, blanked⟩
      · exact absurd trivial (fresh.early call _ running)
      · exact blanked.recorded call request receipt running
    · cases step
  | failure call =>
    unfold World.exec at step
    dsimp only at step
    split_ifs at step with busy
    obtain ⟨rfl, rfl⟩ := Prod.mk.inj (Except.ok.inj step)
    exact ⟨h.ended call, answerLaw_of_other nofun nofun, fun _ => id⟩

variable (policyId profileId) in
/-- The invariant of a run, with the answers it has given. -/
def History (first now : World) (given : List Answer) : Prop :=
  MinimizationInv policyId profileId first now ∧ ∀ answer ∈ given, AnswerLaw policyId profileId now answer

theorem History.exec {first now after : World} {given : List Answer} (h : History policyId profileId first now given)
    (distinct : (first.profiles.map (·.id)).Nodup) {event : Event} {answer : Answer}
    (own : event.For policyId profileId) (learns : LearnsNames policyId profileId first now event)
    (step : now.exec event = .ok (after, answer)) : History policyId profileId first after (given ++ [answer]) := by
  have kept := h.1.exec distinct own learns step
  refine ⟨kept.inv, fun before mem => ?_⟩
  rcases List.mem_append.mp mem with mem | mem
  · have law := h.2 before mem
    exact ⟨law.1, fun receipt same => kept.receipts receipt (law.2 receipt same)⟩
  · rw [List.mem_singleton.mp mem]
    exact kept.answer

theorem history_start {first : World} (fresh : first.receiptsOf policyId profileId = [])
    (idle : ∀ call, first.running call = none) : History policyId profileId first first [] := by
  have early (call : Nat) (state : RunningCall) (running : first.running call = some state) : False := by
    rw [idle call] at running
    cases running
  refine ⟨⟨fun call state running => (early call state running).elim, .inl ?_⟩, fun _ mem => nomatch mem⟩
  exact ⟨rfl, rfl, fresh, fun call state running => (early call state running).elim⟩

/-- In every run of calls for a profile under a policy in which the profile transactions learn the
names of the files, a receipt means what it says, there is one at most, and no call fails for it. -/
theorem run_minimization {first : World} (fresh : first.receiptsOf policyId profileId = [])
    (idle : ∀ call, first.running call = none) (distinct : (first.profiles.map (·.id)).Nodup) {events : List Event}
    (own : ∀ event ∈ events, event.For policyId profileId)
    (learns : calls.Along (LearnsNames policyId profileId first) first events) :
    ReceiptLaw policyId profileId first (calls.run first events) ∧
      ∀ answer ∈ calls.answers first events, answer ≠ .receiptExists ∧
        ∀ receipt, answer = .returned receipt → receipt ∈ (calls.run first events).receiptsOf policyId profileId := by
  have all : History policyId profileId first (calls.run first events) ([] ++ calls.answers first events) :=
    Machine.history_invariant_along (I := History policyId profileId first)
      (fun now given event after answer history condition step =>
        History.exec history distinct condition.2 condition.1 step)
      (history_start fresh idle) (learns.and_forall own)
  exact ⟨all.1.law distinct, all.2⟩

end

/-! ## Photos -/

def attendee : AttendeeRegistrationProfile where
  id := 1
  organizationId := 2
  editionId := 3
  realName := "Ada"
  dateOfBirth := (1990, 1, 1)
  addressLine1 := "Street 1"
  locality := "Town"
  postalCode := "1"
  region := "R"
  countryCode := "DE"
  emergencyContactName := "Bo"
  emergencyContactPhone := "0000001"
  phoneNumber := "0000002"
  profilePhoto := "a.jpg"

def attendeePolicy : RetentionPolicy where
  id := 4
  organizationId := 2
  dataCategory := "registration_profile"
  retentionDays := 30
  disposition := .minimize
  active := true

def attendeeWorld : World where
  profiles := [attendee]
  fursuits := []
  endsOn := fun _ => 0
  policies := [attendeePolicy]
  receipts := []
  files := ["a.jpg"]
  running := fun _ => none

def attendeeRequest : MinimizationRequest where
  actorId := 5
  organizationId := 2
  editionId := 3
  profileId := 1
  policyId := 4
  today := 30
  allowed := true

/-- The photo of the profile's fursuit is also the photo of another one's. -/
def sharedWorld : World :=
  { attendeeWorld with
    fursuits := [⟨6, 1, "Fox", "", true, "b.jpg", .none, none, none, "", none⟩,
      ⟨7, 8, "Cat", "", true, "b.jpg", .none, none, none, "", none⟩]
    files := ["a.jpg", "b.jpg"] }

/-- Two calls, of which one ends early and the other goes to its end, and a later one. -/
def undisturbed : List Event :=
  [.start 0 attendeeRequest, .start 1 attendeeRequest, .transaction 1, .disposal 1, .failure 0,
    .disposal 1, .receipt 1, .audit 1, .start 2 attendeeRequest]

theorem undisturbed_minimization :
    ReceiptLaw 4 1 sharedWorld (calls.run sharedWorld undisturbed) ∧
      (∀ answer ∈ calls.answers sharedWorld undisturbed, answer ≠ .receiptExists ∧
        ∀ receipt, answer = .returned receipt → receipt ∈ (calls.run sharedWorld undisturbed).receiptsOf 4 1) ∧
      (calls.run sharedWorld undisturbed).files = ["b.jpg"] := by
  obtain ⟨law, answers⟩ := @run_minimization 4 1 sharedWorld rfl (fun _ => rfl)
    (by decide) undisturbed (by simp [undisturbed, Event.For, attendeeRequest])
    ⟨trivial, trivial, fun _ _ _ => .inl rfl, trivial, trivial, trivial, trivial, trivial, trivial, trivial⟩
  exact ⟨law, answers, rfl⟩

/-- A call that fails after its transaction, and the next one. -/
def retried : List Event :=
  [.start 0 attendeeRequest, .transaction 0, .failure 0, .start 1 attendeeRequest, .transaction 1, .receipt 1]

/-- Two calls side by side. -/
def overlapping : List Event :=
  [.start 0 attendeeRequest, .start 1 attendeeRequest, .transaction 0, .transaction 1,
    .disposal 0, .receipt 0, .receipt 1]

/-- The next call writes a receipt without the photo, which stays in the storage; the
second of two calls fails. -/
theorem retried_not_law : ¬ ReceiptLaw 4 1 attendeeWorld (calls.run attendeeWorld retried) ∧
    (calls.run attendeeWorld retried).files = ["a.jpg"] ∧ .receiptExists ∈ calls.answers attendeeWorld overlapping := by
  refine ⟨fun law => ?_, rfl, by decide⟩
  have receipts : (calls.run attendeeWorld retried).receiptsOf 4 1 = [attendeeRequest.receipt attendeePolicy []] := rfl
  obtain ⟨named, _⟩ := law.files (attendeeRequest.receipt attendeePolicy []) (by simp [receipts])
    attendee (by simp [attendeeWorld])
    rfl "a.jpg" (by decide)
  cases named

end Maru.PrivacyOps
