import GophProfile.Worker
import GophProfile.World

/-! The reconciler over several passes: which of the avatars stuck in processing are
published again while the same ones stay stuck. -/
namespace GophProfile.Worker

open Domain Effect

/-! ### The rows that are stuck -/

/-- Live rows in processing since before an instant, as a query may find them. -/
structure Backlog where
  rows : List Row
  before : Time
  unique : (rows.map Row.id).Nodup
  live : ∀ r ∈ rows, r.live = true
  pending : ∀ r ∈ rows, r.processingStatus = .pending
  old : ∀ r ∈ rows, r.createdAt < before
  readable : ∀ r ∈ rows, ∃ thumbnails, Postgres.unmarshalThumbnails r.thumbnailS3Keys = .ok thumbnails

/-- `ORDER BY created_at LIMIT`; the order of rows of one instant is left open. -/
def Backlog.Listed (b : Backlog) (limit : Nat) (listed : List Row) : Prop :=
  ∃ order : List Row, order.Perm b.rows ∧ order.Pairwise (fun r r' => r.createdAt ≤ r'.createdAt) ∧
    listed = order.take limit

/-- The event of a row: its own id, user id and key. -/
def eventOf (r : Row) : AvatarUploadEvent := ⟨r.id.string,r.userID,r.s3Key⟩

/-- Every query and every publication succeeds, and the query for stuck rows finds a list
that is possible for its limit. -/
def Finds (batch : Nat → List Row → Prop) : (c : Call) → c.Answer → Prop
  | .allow _, answer => answer = .ok ()
  | .selectPending _ limit, answer => ∃ rows, answer = .ok rows ∧ batch limit rows
  | .countPending _, answer => ∃ count, answer = .ok count
  | .publishUpload _, answer => answer = .ok .acked
  | _, _ => True

def publication : (c : Call) × c.Answer → Option AvatarUploadEvent
  | ⟨.publishUpload event,.ok .acked⟩ => some event
  | _ => none

/-- The events that were published, in their order. -/
def published (calls : Called) : List AvatarUploadEvent := calls.filterMap publication

@[simp] theorem published_nil : published [] = [] := rfl

@[simp] theorem published_append (calls more : Called) :
    published (calls ++ more) = published calls ++ published more := List.filterMap_append

theorem published_silent {call : (c : Call) × c.Answer} {calls : Called}
    (silent : publication call = none) : published (call :: calls) = published calls :=
  List.filterMap_cons_none silent

/-! ### One pass -/

section Pass
variable {batch : Nat → List Row → Prop} {α : Type}

/-- A breaker that lets everything through publishes nothing of its own. -/
theorem ends_breaker (b : Option Breaker) {fn : Prog (Except Err α)}
    (post : List AvatarUploadEvent → α → Prop)
    (inner : Ends (Finds batch) fn fun calls result =>
      ∃ value, result = .ok value ∧ post (published calls) value) :
    Ends (Finds batch) (Breaker.call b fn) fun calls result =>
      ∃ value, result = .ok value ∧ post (published calls) value := by
  cases b with
  | none => exact inner
  | some b =>
    refine Ends.bind ?_
    rintro answer rfl
    refine Ends.bind (p := fn) (inner.mono ?_)
    rintro calls _ ⟨value,rfl,known⟩
    intro done _
    refine ⟨value,rfl,?_⟩
    rw [List.append_nil,@published_silent ⟨.allow b.dependency,.ok ()⟩ _ rfl,
      published_append,published_silent rfl,published_nil,List.append_nil]
    exact known

theorem ends_publishUpload (p : RabbitMQ.Publisher) (event : AvatarUploadEvent) :
    Ends (Finds batch) (p.publishUpload event) fun calls _ => published calls = [event] := by
  have inner : Ends (Finds batch) (p.publishUpload event) fun calls result =>
      ∃ value, result = .ok value ∧ published calls = [event] := by
    refine ends_breaker _ (fun events _ => events = [event]) ?_
    rintro answer rfl
    exact ⟨(),rfl,rfl⟩
  exact inner.mono fun calls result known => known.choose_spec.2

theorem ends_republish (r : Reconciler) (avatars : List Avatar) :
    Ends (Finds batch) (republish r avatars) fun calls _ =>
      published calls = avatars.map AvatarService.uploadEvent := by
  induction avatars with
  | nil => rfl
  | cons avatar rest ih =>
    refine Ends.bind ((ends_publishUpload _ _).mono fun calls _ first => ?_)
    refine ih.mono fun more _ later => ?_
    simp [first,later]

theorem scanAvatars_events {rows : List Row} (readable : ∀ r ∈ rows, ∃ thumbnails,
    Postgres.unmarshalThumbnails r.thumbnailS3Keys = .ok thumbnails) :
    ∃ avatars, Postgres.scanAvatars rows = .ok avatars ∧
      avatars.map AvatarService.uploadEvent = rows.map eventOf := by
  induction rows with
  | nil => exact ⟨[],rfl,rfl⟩
  | cons r rest ih =>
    obtain ⟨thumbnails,decoded⟩ := readable r List.mem_cons_self
    obtain ⟨avatars,scanned,events⟩ := ih fun r member => readable r (List.mem_cons_of_mem _ member)
    refine ⟨Postgres.toAvatar r thumbnails :: avatars,?_,?_⟩
    · simp only [Postgres.scanAvatars,Postgres.scanAvatar,decoded,scanned]
    · simp only [List.map_cons,events]
      rfl

/-- A pass publishes what its query lists. -/
theorem ends_reconcile (r : Reconciler) (readable : ∀ limit rows, batch limit rows →
    ∀ row ∈ rows, ∃ thumbnails, Postgres.unmarshalThumbnails row.thumbnailS3Keys = .ok thumbnails) :
    Ends (Finds batch) (reconcile r) fun calls _ =>
      ∃ rows, batch reconcileBatch rows ∧ published calls = rows.map eventOf := by
  have list : Ends (Finds batch) (r.repo.listPendingOlderThan r.age reconcileBatch) fun calls result =>
      ∃ avatars, result = .ok avatars ∧ published calls = [] ∧
        ∃ rows, batch reconcileBatch rows ∧
          avatars.map AvatarService.uploadEvent = rows.map eventOf := by
    refine ends_breaker _ (fun events (avatars : List Avatar) => events = [] ∧
      ∃ rows, batch reconcileBatch rows ∧
        avatars.map AvatarService.uploadEvent = rows.map eventOf) ?_
    rintro answer ⟨rows,rfl,possible⟩
    obtain ⟨avatars,scanned,events⟩ := scanAvatars_events (readable _ _ possible)
    refine ⟨avatars,?_,rfl,rows,possible,events⟩
    simp only [Postgres.pendingResult,scanned]
  have count : Ends (Finds batch) (r.repo.countPendingOlderThan r.age) fun calls result =>
      ∃ value, result = .ok value ∧ published calls = [] := by
    refine ends_breaker _ (fun events _ => events = []) ?_
    rintro answer ⟨count,rfl⟩
    exact ⟨count,rfl,rfl⟩
  refine Ends.bind (list.mono ?_)
  rintro listing _ ⟨avatars,rfl,silent,rows,possible,events⟩
  refine Ends.bind (count.mono ?_)
  rintro counting _ ⟨value,rfl,quiet⟩
  refine (ends_republish r avatars).mono fun calls _ sent => ⟨rows,possible,?_⟩
  simp [silent,quiet,sent,events]

/-- Several passes publish what their queries list, each time anew. -/
theorem ends_passes (r : Reconciler) (readable : ∀ limit rows, batch limit rows →
    ∀ row ∈ rows, ∃ thumbnails, Postgres.unmarshalThumbnails row.thumbnailS3Keys = .ok thumbnails)
    (n : Nat) :
    Ends (Finds batch) (passes r n) fun calls _ =>
      ∃ batches : List (List Row), batches.length = n ∧ (∀ rows ∈ batches, batch reconcileBatch rows) ∧
        published calls = batches.flatten.map eventOf := by
  induction n with
  | zero => exact ⟨[],rfl,by simp,rfl⟩
  | succ n ih =>
    refine Ends.bind ((ends_reconcile r readable).mono ?_)
    rintro first _ ⟨rows,possible,sent⟩
    refine ih.mono ?_
    rintro later _ ⟨batches,length,all,more⟩
    exact ⟨rows :: batches,by simp [length],by simpa using ⟨possible,all⟩,by simp [sent,more]⟩

end Pass

/-! ### All passes -/

/-- ⌈N / reconcileBatch⌉ -/
def Backlog.rounds (b : Backlog) : Nat := (b.rows.length + reconcileBatch - 1) / reconcileBatch

/-- However the rows of one instant are ordered, every stuck row is published in so many
passes as the backlog has batches. -/
def Reconciler.Covers (r : Reconciler) (b : Backlog) : Prop :=
  Ends (Finds b.Listed) (passes r b.rounds) fun calls _ => ∀ row ∈ b.rows, eventOf row ∈ published calls

theorem Backlog.listed_readable (b : Backlog) (limit : Nat) (rows : List Row)
    (listed : b.Listed limit rows) : ∀ row ∈ rows,
      ∃ thumbnails, Postgres.unmarshalThumbnails row.thumbnailS3Keys = .ok thumbnails := by
  obtain ⟨order,perm,-,rfl⟩ := listed
  exact fun row member => b.readable row (perm.mem_iff.mp (List.mem_of_mem_take member))

theorem Reconciler.covers_of_small (r : Reconciler) (b : Backlog)
    (small : b.rows.length ≤ reconcileBatch) : r.Covers b := by
  refine (ends_passes r b.listed_readable b.rounds).mono ?_
  rintro calls _ ⟨batches,length,listed,sent⟩ row member
  have nonempty : 0 < b.rows.length := List.length_pos_of_mem member
  have once : 0 < batches.length := by
    rw [length,Backlog.rounds,reconcileBatch]
    unfold reconcileBatch at small
    omega
  obtain ⟨rows,rest,rfl⟩ := List.exists_cons_of_length_pos once
  obtain ⟨order,perm,-,rfl⟩ := listed _ List.mem_cons_self
  rw [List.take_of_length_le (perm.length_eq ▸ small)] at sent
  rw [sent,List.flatten_cons,List.map_append]
  exact List.mem_append_left _ (List.mem_map_of_mem (perm.mem_iff.mpr member))

/-- One order the rows may always come in. -/
def Backlog.order (b : Backlog) : List Row :=
  b.rows.insertionSort fun r r' => r.createdAt ≤ r'.createdAt

theorem sorted_byCreation (rows : List Row) :
    (rows.insertionSort fun r r' => r.createdAt ≤ r'.createdAt).Pairwise fun r r' =>
      r.createdAt ≤ r'.createdAt := by
  have : Std.Total fun r r' : Row => r.createdAt ≤ r'.createdAt :=
    ⟨fun r r' => Nat.le_total r.createdAt r'.createdAt⟩
  have : IsTrans Row fun r r' => r.createdAt ≤ r'.createdAt := ⟨fun _ _ _ => Nat.le_trans⟩
  exact List.pairwise_insertionSort _ _

theorem Backlog.listed_order (b : Backlog) (limit : Nat) : b.Listed limit (b.order.take limit) :=
  ⟨b.order,List.perm_insertionSort _ _,sorted_byCreation b.rows,rfl⟩

theorem finds_some (batch : Nat → List Row → Prop) (some : ∀ limit, ∃ rows, batch limit rows) (c : Call) :
    ∃ answer, Finds batch c answer := by
  cases c
  case selectPending age limit =>
    obtain ⟨rows,possible⟩ := some limit
    exact ⟨.ok rows,rows,rfl,possible⟩
  case allow d => exact ⟨.ok (),rfl⟩
  case countPending age => exact ⟨.ok 0,0,rfl⟩
  case publishUpload event => exact ⟨.ok .acked,rfl⟩
  case newUUID => exact ⟨UUID.nil,trivial⟩
  case iterate keys => exact ⟨⟨keys,.refl _⟩,trivial⟩
  case receiveUpload => exact ⟨⟨[],[],[]⟩,trivial⟩
  case receiveDelete => exact ⟨⟨[],[]⟩,trivial⟩
  case report d outcome => exact ⟨(),trivial⟩
  case breakerRejected d reason => exact ⟨(),trivial⟩
  all_goals exact ⟨.error .canceled,trivial⟩

/-- Every pass finds the same first rows, so the others are never published. -/
theorem Reconciler.not_covers_of_large (r : Reconciler) (b : Backlog)
    (large : reconcileBatch < b.rows.length) : ¬ r.Covers b := by
  intro covers
  have first : ∀ c answer, Finds (fun limit rows => rows = b.order.take limit) c answer →
      Finds b.Listed c answer := by
    intro c answer found
    cases c
    case selectPending age limit =>
      obtain ⟨rows,rfl,rfl⟩ := found
      exact ⟨_,rfl,b.listed_order limit⟩
    all_goals exact found
  obtain ⟨calls,value,run⟩ := exists_runs (passes r b.rounds)
    (finds_some (fun limit rows => rows = b.order.take limit) fun _ => ⟨_,rfl⟩)
  have all := (covers.restrict first).runs run
  have readable := fun limit rows (same : rows = b.order.take limit) =>
    b.listed_readable limit rows (same ▸ b.listed_order limit)
  obtain ⟨batches,-,same,sent⟩ := (ends_passes r readable b.rounds).runs run
  have perm : b.order.Perm b.rows := List.perm_insertionSort _ _
  have ids : ((b.order.take reconcileBatch ++ b.order.drop reconcileBatch).map Row.id).Nodup := by
    rw [List.take_append_drop]
    exact (perm.map Row.id).nodup_iff.mpr b.unique
  obtain ⟨row,rest,later⟩ : ∃ row rest, b.order.drop reconcileBatch = row :: rest := by
    refine List.exists_cons_of_length_pos ?_
    rw [List.length_drop,perm.length_eq]
    omega
  have member : row ∈ b.order.drop reconcileBatch := later ▸ List.mem_cons_self
  have event := all row (perm.mem_iff.mp (List.mem_of_mem_drop member))
  rw [sent] at event
  obtain ⟨row',inside,equal⟩ := List.mem_map.mp event
  obtain ⟨rows,batch,inside⟩ := List.mem_flatten.mp inside
  rw [same rows batch] at inside
  have id : row'.id = row.id := UUID.string_injective (AvatarUploadEvent.mk.inj equal).1
  rw [List.map_append,List.nodup_append] at ids
  exact ids.2.2 row'.id (List.mem_map_of_mem inside) row.id (List.mem_map_of_mem member) id

/-- The reconciler reaches every stuck avatar just when they fit into one batch. -/
theorem covers_iff (r : Reconciler) (b : Backlog) : r.Covers b ↔ b.rows.length ≤ reconcileBatch := by
  constructor
  · intro covers
    by_contra large
    exact r.not_covers_of_large b (by omega) covers
  · exact r.covers_of_small b

/-! ### One more than a batch -/

def numberedID (n : Fin 101) : UUID where
  text := [.ofNat (48 + n / 100),.ofNat (48 + n / 10 % 10),.ofNat (48 + n % 10)] ++
    List.replicate 33 48
  length := by simp
  digits := by revert n; decide

theorem numberedID_injective : Function.Injective numberedID := by
  intro m n same
  have text := congrArg (fun id : UUID => id.text.take 3) same
  simp only [numberedID,List.cons_append,List.nil_append,List.take_succ_cons,List.take_zero,
    List.cons.injEq,and_true] at text
  have hundreds := congrArg UInt8.toNat text.1
  have tens := congrArg UInt8.toNat text.2.1
  have units := congrArg UInt8.toNat text.2.2
  simp only [UInt8.toNat_ofNat'] at hundreds tens units
  omega

def numberedRow (n : Fin 101) : Row :=
  .ofInsert (AvatarService.newAvatar ⟨lit "alice",lit "a.png",lit "image/png",8,[]⟩ (numberedID n))
    (.obj []) n

/-- A hundred and one uploads whose events were lost. -/
def numberedBacklog : Backlog where
  rows := (List.finRange 101).map numberedRow
  before := 101
  unique := by
    rw [List.map_map]
    exact (List.nodup_finRange 101).map numberedID_injective
  live := by simp [numberedRow,Row.ofInsert,Row.live]
  pending := by simp [numberedRow,Row.ofInsert,AvatarService.newAvatar]
  old := by
    intro r member
    obtain ⟨n,-,rfl⟩ := List.mem_map.mp member
    exact n.isLt
  readable := by
    intro r member
    obtain ⟨n,-,rfl⟩ := List.mem_map.mp member
    exact ⟨_,rfl⟩

def standardReconciler : Reconciler where
  repo := ⟨some ⟨.postgres,some Postgres.isDataError⟩⟩
  publisher := ⟨some ⟨.rabbitmq,none⟩⟩
  age := 300

theorem numberedBacklog_uncovered : ¬ standardReconciler.Covers numberedBacklog :=
  standardReconciler.not_covers_of_large numberedBacklog (by simp [numberedBacklog,reconcileBatch])

end GophProfile.Worker
