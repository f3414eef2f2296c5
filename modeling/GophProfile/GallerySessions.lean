import GophProfile.GalleryRuns

/-! What a client can rely on from one call to the next, whoever else uses the service. -/
namespace GophProfile.Gallery

open Domain Effect Transition Linearizability

variable {P : Packages} {cfg : Config} {faulty : Prop} {g g' : Gallery} {op : Op} {answer : Answer} {id : UUID}

/-- The avatars that an answer shows. -/
def Answer.shows : Answer → List Avatar
  | .avatar a => [a]
  | .avatars all => all
  | _ => []

/-- What no worker changes of an avatar. -/
structure Same (a b : Avatar) : Prop where
  id : b.id = a.id
  userID : b.userID = a.userID
  fileName : b.fileName = a.fileName
  mimeType : b.mimeType = a.mimeType
  sizeBytes : b.sizeBytes = a.sizeBytes
  s3Key : b.s3Key = a.s3Key
  createdAt : b.createdAt = a.createdAt

theorem Same.refl (a : Avatar) : Same a a := ⟨rfl,rfl,rfl,rfl,rfl,rfl,rfl⟩

theorem Same.completed {a b : Avatar} (same : Same a b) (width height : Int64) (now : Time) :
    Same a (completed width height now b) := by
  unfold Gallery.completed
  split
  · exact same
  · exact ⟨same.id,same.userID,same.fileName,same.mimeType,same.sizeBytes,same.s3Key,same.createdAt⟩

theorem Same.unreadable {a b : Avatar} (same : Same a b) (now : Time) : Same a (unreadable now b) :=
  ⟨same.id,same.userID,same.fileName,same.mimeType,same.sizeBytes,same.s3Key,same.createdAt⟩

/-- What every operation keeps is kept where it is cut off, too. -/
theorem Does.keeps (done : Does faulty op g answer g') (property : Gallery → Prop) (here : property g)
    (kept : ∀ id now, g.Admits op id now → property (g.apply id now op).2) : property g' := by
  cases done with
  | answered id now admits => exact kept id now admits
  | lost => exact here
  | cut fault id now admits => exact kept id now admits

/-- An answer is that of the operation, or it is a failure where things go wrong. -/
theorem Does.reply (done : Does faulty op g answer g') :
    (∃ id now, g.Admits op id now ∧ answer = (g.apply id now op).1) ∨ faulty ∧ answer = .failed := by
  cases done with
  | answered id now admits => exact .inl ⟨id,now,admits,rfl⟩
  | lost fault => exact .inr ⟨fault,rfl⟩
  | cut fault => exact .inr ⟨fault,rfl⟩

theorem mem_change {f : Avatar → Avatar} {a : Avatar} (member : a ∈ (g.change id f).avatars) :
    ∃ b ∈ g.avatars, a = f b ∧ b.id = id ∨ a = b ∧ b.id ≠ id := by
  obtain ⟨b,inside,rfl⟩ := List.mem_map.mp member
  by_cases here : b.id = id
  · exact ⟨b,inside,.inl ⟨if_pos here,here⟩⟩
  · exact ⟨b,inside,.inr ⟨if_neg here,here⟩⟩

/-! ### Deleted avatars -/

/-- The id was given, and its avatar is gone. -/
def Gone (id : UUID) (g : Gallery) : Prop := g.taken id = true ∧ ∀ a ∈ g.avatars, a.id ≠ id

theorem Gone.change (gone : Gone id g) (other : UUID) {f : Avatar → Avatar} (same : ∀ a, (f a).id = a.id) :
    Gone id (g.change other f) := by
  refine ⟨gone.1,fun a member => ?_⟩
  obtain ⟨b,inside,⟨rfl,-⟩ | ⟨rfl,-⟩⟩ := mem_change member
  · exact same b ▸ gone.2 b inside
  · exact gone.2 _ inside

theorem Gone.fresh {now : Time} {fresh : UUID} {input : UploadInput} (gone : Gone id g)
    (admits : g.Admits (.upload input) fresh now) (valid : validateUserID input.userID = .ok ()) : fresh ≠ id := by
  rintro rfl
  have free := admits.fresh input rfl valid
  rw [gone.1] at free
  contradiction

theorem Gone.apply {now : Time} {fresh : UUID} (gone : Gone id g) (admits : g.Admits op fresh now) :
    Gone id (g.apply fresh now op).2 := by
  cases op with
  | upload input =>
    simp only [Gallery.apply]
    split
    · exact gone
    · next valid =>
      split
      · exact gone
      · refine ⟨by simp [Gallery.add,gone.1],fun a member => ?_⟩
        rcases List.mem_cons.mp member with rfl | old
        · exact gone.fresh admits valid
        · exact gone.2 a old
  | delete id' userID =>
    simp only [Gallery.apply]
    split
    · exact gone
    · split
      · exact gone
      · split
        · exact ⟨gone.1,fun a member => gone.2 a (List.mem_of_mem_filter member)⟩
        · exact gone
  | metadata => exact gone
  | current userID =>
    simp only [Gallery.apply]
    split <;> exact gone
  | list userID =>
    simp only [Gallery.apply]
    split <;> exact gone
  | complete id' width height => exact gone.change id' fun a => (completed_id width height now a).1
  | fail id' => exact gone.change id' fun _ => rfl

theorem Gone.unseen {now : Time} {fresh : UUID} (gone : Gone id g) (admits : g.Admits op fresh now) :
    ∀ a ∈ (g.apply fresh now op).1.shows, a.id ≠ id := by
  have one {found : Option Avatar} (inside : ∀ a, found = some a → a ∈ g.avatars) : ∀ a ∈ (one found).shows, a.id ≠ id := by
    intro a member
    cases found with
    | none => contradiction
    | some b =>
      obtain rfl := List.mem_singleton.mp member
      exact gone.2 _ (inside _ rfl)
  cases op with
  | upload input =>
    simp only [Gallery.apply]
    split
    · simp [Answer.shows]
    · next valid =>
      split
      · simp [Answer.shows]
      · intro a member
        obtain rfl := List.mem_singleton.mp member
        exact gone.fresh admits valid
  | delete id' userID =>
    simp only [Gallery.apply]
    split
    · simp [Answer.shows]
    · split
      · simp [Answer.shows]
      · split <;> simp [Answer.shows]
  | metadata id' => exact one fun a found => List.mem_of_find?_eq_some found
  | current userID =>
    simp only [Gallery.apply]
    split
    · simp [Answer.shows]
    · exact one fun a found => List.mem_of_mem_filter (List.mem_of_head? found)
  | list userID =>
    simp only [Gallery.apply]
    split
    · simp [Answer.shows]
    · exact fun a member => gone.2 a (List.mem_of_mem_filter member)
  | complete => simp [Gallery.apply,Answer.shows]
  | fail => simp [Gallery.apply,Answer.shows]

theorem gone_deleted {userID : GoString} (tidy : g.Tidy) (done : Does faulty (.delete id userID) g .done g') :
    Gone id g' := by
  generalize told : Answer.done = answer at done
  cases done with
  | answered fresh now admits =>
    simp only [apply] at told ⊢
    split at told
    · contradiction
    · split at told
      · contradiction
      · next a found =>
        have here : a.id = id := by simpa using List.find?_some found
        have taken := tidy.taken a (List.mem_of_find?_eq_some found)
        split at told
        · next own =>
          simp only [own,if_true]
          exact ⟨here ▸ taken,fun b member => by simpa using (List.mem_filter.mp member).2⟩
        · contradiction
  | lost => contradiction
  | cut => contradiction

/-! ### Avatars that are there -/

/-- An avatar like this one is in the gallery. -/
def Kept (a : Avatar) (g : Gallery) : Prop := ∃ b ∈ g.avatars, Same a b

theorem Kept.change {a : Avatar} (kept : Kept a g) (id : UUID) {f : Avatar → Avatar}
    (same : ∀ b, Same a b → Same a (f b)) :
    Kept a (g.change id f) := by
  obtain ⟨b,inside,alike⟩ := kept
  refine ⟨if b.id = id then f b else b,List.mem_map_of_mem inside,?_⟩
  split
  · exact same b alike
  · exact alike

theorem Kept.apply {a : Avatar} {now : Time} {fresh : UUID} (kept : Kept a g)
    (other : ∀ userID, op ≠ .delete a.id userID) : Kept a (g.apply fresh now op).2 := by
  cases op with
  | upload input =>
    simp only [Gallery.apply]
    split
    · exact kept
    · split
      · exact kept
      · obtain ⟨b,inside,alike⟩ := kept
        exact ⟨b,List.mem_cons_of_mem _ inside,alike⟩
  | delete id userID =>
    simp only [Gallery.apply]
    split
    · exact kept
    · split
      · exact kept
      · split
        · obtain ⟨b,inside,alike⟩ := kept
          have different : b.id ≠ id := fun same => other userID (by rw [← same,alike.id])
          exact ⟨b,List.mem_filter.mpr ⟨inside,by simpa using different⟩,alike⟩
        · exact kept
  | metadata => exact kept
  | current userID =>
    simp only [Gallery.apply]
    split <;> exact kept
  | list userID =>
    simp only [Gallery.apply]
    split <;> exact kept
  | complete id width height => exact kept.change id fun b same => same.completed width height now
  | fail id => exact kept.change id fun b same => same.unreadable now

/-- What the three reading operations say of an avatar that is there. -/
theorem Kept.read {a : Avatar} (kept : Kept a g) (tidy : g.Tidy) (valid : validateUserID a.userID = .ok ())
    (fresh : UUID) (now : Time) :
    (∃ b, (g.apply fresh now (.metadata a.id)).1 = .avatar b ∧ Same a b) ∧
    (∃ all, (g.apply fresh now (.list a.userID)).1 = .avatars all ∧ ∃ b ∈ all, Same a b) ∧
    ∃ b, (g.apply fresh now (.current a.userID)).1 = .avatar b ∧ b.userID = a.userID ∧ a.createdAt ≤ b.createdAt := by
  obtain ⟨b,inside,alike⟩ := kept
  have mine : b ∈ g.ofUser a.userID := List.mem_filter.mpr ⟨inside,by simp [alike.userID]⟩
  refine ⟨⟨b,?_,alike⟩,⟨g.ofUser a.userID,by simp [Gallery.apply,valid],b,mine,alike⟩,?_⟩
  · have found : (g.find a.id).isSome = true := List.find?_isSome.mpr ⟨b,inside,by simp [alike.id]⟩
    obtain ⟨x,there⟩ := Option.isSome_iff_exists.mp found
    have here : x.id = a.id := by simpa using List.find?_some there
    have same := List.inj_on_of_nodup_map tidy.once (List.mem_of_find?_eq_some there) inside (here.trans alike.id.symm)
    simp [Gallery.apply,there,one,same]
  · have sorted := tidy.newest.sublist (List.filter_sublist (p := fun x : Avatar => decide (x.userID = a.userID)))
    cases all : g.ofUser a.userID with
    | nil =>
      rw [all] at mine
      contradiction
    | cons first rest =>
      have own : first ∈ g.ofUser a.userID := all ▸ List.mem_cons_self
      refine ⟨first,by simp [Gallery.apply,valid,all,one],by simpa using (List.mem_filter.mp own).2,?_⟩
      rw [← alike.createdAt]
      rw [all] at mine
      rcases List.mem_cons.mp mine with rfl | later
      · exact Nat.le_refl _
      · have pairs : (first :: rest).Pairwise fun a b => b.createdAt < a.createdAt := all ▸ sorted
        exact Nat.le_of_lt ((List.pairwise_cons.mp pairs).1 b later)

theorem kept_uploaded {input : UploadInput} {a : Avatar} (done : Does faulty (.upload input) g (.avatar a) g') :
    Kept a g' ∧ a.userID = input.userID ∧ validateUserID a.userID = .ok () := by
  generalize told : Answer.avatar a = answer at done
  cases done with
  | answered fresh now admits =>
    simp only [apply] at told ⊢
    split at told
    · contradiction
    · next valid =>
      split at told
      · contradiction
      · next plain =>
        cases told
        simp only [plain]
        exact ⟨⟨_,List.mem_cons_self,.refl _⟩,rfl,valid⟩
  | lost => contradiction
  | cut => contradiction

theorem listed_tidy {userID : GoString} {all : List Avatar} (tidy : g.Tidy)
    (done : Does faulty (.list userID) g (.avatars all) g') :
    all.Pairwise (fun a b => b.createdAt < a.createdAt) ∧ (all.map Avatar.id).Nodup ∧ ∀ a ∈ all, a.userID = userID := by
  generalize told : Answer.avatars all = answer at done
  cases done with
  | answered fresh now admits =>
    simp only [apply] at told
    split at told
    · contradiction
    · cases told
      exact ⟨tidy.newest.sublist List.filter_sublist,tidy.once.sublist (List.filter_sublist.map _),
        fun a member => by simpa using (List.mem_filter.mp member).2⟩
  | lost => contradiction
  | cut => contradiction

/-! ### From one call to the next -/

variable {breakers : Dependency → BreakerState} {trace : List (State P × Action × State P)} {s : State P}

theorem tidy_sequential {order : List (Nat × Op × Answer)} (sequential : Sequential (Does faulty) empty order g) :
    g.Tidy := sequential.invariant Tidy tidy_empty fun _ _ _ _ _ _ tidy done => done.tidy tidy

/-- What the answers of one run tell a client that waits for each before its next call, while
anybody else does anything: a deleted avatar is never seen again, an uploaded one is seen until
somebody deletes it, and lists are in order. -/
theorem answers_consistent (faulty : Prop) (run : Path (step cfg) (start breakers) trace s)
    (troubled : ∀ entry ∈ trace, entry.2.1.fails = true → faulty) :
    (∀ i j id userID op answer, .invoke i (.delete id userID) ∈ (seen trace).history →
      [.respond i .done,.invoke j op].Sublist (seen trace).history → .respond j answer ∈ (seen trace).history →
        (∀ a ∈ answer.shows, a.id ≠ id) ∧ (op = .metadata id → answer = .notFound ∨ faulty ∧ answer = .failed)) ∧
    (∀ i j input a op answer, .invoke i (.upload input) ∈ (seen trace).history →
      [.respond i (.avatar a),.invoke j op].Sublist (seen trace).history →
      .respond j answer ∈ (seen trace).history →
      (∀ k userID, .invoke k (.delete a.id userID) ∉ (seen trace).history) →
        (op = .metadata a.id → (∃ b, answer = .avatar b ∧ Same a b) ∨ faulty ∧ answer = .failed) ∧
        (op = .list input.userID → (∃ all, answer = .avatars all ∧ ∃ b ∈ all, Same a b) ∨ faulty ∧ answer = .failed) ∧
        (op = .current input.userID → (∃ b, answer = .avatar b ∧ b.userID = input.userID ∧ a.createdAt ≤ b.createdAt) ∨
          faulty ∧ answer = .failed)) ∧
    ∀ j userID all, .invoke j (.list userID) ∈ (seen trace).history → .respond j (.avatars all) ∈ (seen trace).history →
      all.Pairwise (fun a b => b.createdAt < a.createdAt) ∧ (all.map Avatar.id).Nodup ∧ ∀ a ∈ all, a.userID = userID := by
  obtain ⟨order,holds⟩ := holds_run run troubled
  have explained := holds.explains
  refine ⟨?_,?_,?_⟩
  · intro i j id userID op answer made inTime answered
    obtain ⟨before,between,q₁,q₂,q₃,q₄,earlier,deleted,meanwhile,done,-⟩ := explained.later made inTime answered
    have gone : Gone id q₃ := meanwhile.invariant (Gone id) (gone_deleted (tidy_sequential earlier) deleted)
      fun _ _ _ _ _ _ gone does => does.keeps (Gone id) gone fun _ _ admits => gone.apply admits
    rcases done.reply with ⟨fresh,now,admits,rfl⟩ | ⟨fault,rfl⟩
    · refine ⟨gone.unseen admits,?_⟩
      rintro rfl
      left
      have absent : q₃.find id = none := List.find?_eq_none.mpr fun a member => by simpa using gone.2 a member
      simp [apply,absent,one]
    · exact ⟨by simp [Answer.shows],fun _ => .inr ⟨fault,rfl⟩⟩
  · intro i j input a op answer made inTime answered untouched
    obtain ⟨before,between,q₁,q₂,q₃,q₄,earlier,uploaded,meanwhile,done,made'⟩ := explained.later made inTime answered
    obtain ⟨there,own,valid⟩ := kept_uploaded uploaded
    have kept : Kept a q₃ := meanwhile.invariant (Kept a) there fun k op' r member _ _ kept does =>
      does.keeps (Kept a) kept fun _ _ _ => kept.apply fun userID same =>
        untouched k userID (same ▸ made' _ member)
    have tidy : q₃.Tidy := meanwhile.invariant Tidy (uploaded.tidy (tidy_sequential earlier))
      fun _ _ _ _ _ _ tidy does => does.tidy tidy
    rw [← own]
    rcases done.reply with ⟨fresh,now,-,rfl⟩ | ⟨fault,rfl⟩
    · obtain ⟨metadata,listing,current⟩ := kept.read tidy valid fresh now
      exact ⟨fun same => .inl (same ▸ metadata),fun same => .inl (same ▸ listing),fun same => .inl (same ▸ current)⟩
    · exact ⟨fun _ => .inr ⟨fault,rfl⟩,fun _ => .inr ⟨fault,rfl⟩,fun _ => .inr ⟨fault,rfl⟩⟩
  · intro j userID all made answered
    obtain ⟨before,q₁,q₂,earlier,done⟩ := explained.carried made answered
    exact listed_tidy (tidy_sequential earlier) done

/-! ### An upload that is read back -/

/-- The run with what is seen of it. -/
def watched (cfg : Config) (s : State P × Seen) (a : Action) : Option (State P × Seen) :=
  (step cfg s.1 a).map fun s' => (s',notice s.2 (s.1,a,s'))

theorem watched_run {s₀ : State P} {trace : List ((State P × Seen) × Action × (State P × Seen))} {s : State P × Seen}
    (run : Path (watched cfg) (s₀,Calls.empty) trace s) :
    ∃ trace' : List (State P × Action × State P), Path (step cfg) s₀ trace' s.1 ∧ seen trace' = s.2 ∧
      trace'.map (fun entry => entry.2.1) = trace.map (fun entry => entry.2.1) := by
  induction run with
  | nil => exact ⟨[],.nil,rfl,rfl⟩
  | @snoc trace s s' a before taken ih =>
    obtain ⟨trace',run,same,actions⟩ := ih
    obtain ⟨s'',moved,rfl⟩ := Option.map_eq_some_iff.mp taken
    refine ⟨trace' ++ [(s.1,a,s'')],.snoc run moved,?_,by simp [actions]⟩
    rw [seen_snoc,same]

def readBack : List (Event Nat Op Answer) → Bool
  | [.invoke 0 (.upload _),.respond 0 (.avatar a),.invoke 1 (.metadata id),.respond 1 _] => decide (id = a.id)
  | _ => false

theorem readBack_iff {history : List (Event Nat Op Answer)} : readBack history = true ↔
    ∃ input a answer, history =
      [.invoke 0 (.upload input),.respond 0 (.avatar a),.invoke 1 (.metadata a.id),.respond 1 answer] := by
  constructor
  · intro met
    unfold readBack at met
    split at met
    · next input a id answer =>
      obtain rfl := of_decide_eq_true met
      exact ⟨input,a,answer,rfl⟩
    · contradiction
  · rintro ⟨input,a,answer,rfl⟩
    simp [readBack]

def sampleReads : List Action :=
  (Schedule.upload 0 (Schedule.input Sample.ann) Schedule.other).map .pool ++
    [.ask 0 (.metadata Schedule.other),.answer 0 (.ok .none)]

theorem answers_consistent_sample : ∃ trace s a b,
    Path (step .standard) (start (P := Packages.sample) fun _ => .fresh 5) trace s ∧
      .respond 0 (.avatar a) ∈ (seen trace).history ∧ .respond 1 (.avatar b) ∈ (seen trace).history ∧ Same a b := by
  obtain ⟨trace,⟨s,c⟩,run,calm,met,-⟩ := exists_path (watched .standard) (fun _ a => a.fails = false)
    (start (P := Packages.sample) (fun _ => .fresh 5),Calls.empty) sampleReads (fun s => readBack s.2.history)
    (by decide +kernel)
  obtain ⟨trace',run',same,actions⟩ := watched_run run
  obtain ⟨input,a,answer,whole⟩ := readBack_iff.mp met
  have calm' : ∀ entry ∈ trace', entry.2.1.fails = true → False := by
    intro entry member fails
    have action : entry.2.1 ∈ trace.map fun entry => entry.2.1 := actions ▸ List.mem_map_of_mem member
    obtain ⟨entry',member',equal⟩ := List.mem_map.mp action
    rw [← equal,calm entry' member'] at fails
    contradiction
  have history : (seen trace').history =
      [.invoke 0 (.upload input),.respond 0 (.avatar a),.invoke 1 (.metadata a.id),.respond 1 answer] := by
    rw [same]
    exact whole
  have kept := (answers_consistent False run' calm').2.1 0 1 input a (.metadata a.id) answer (by simp [history])
    (by simp [history]) (by simp [history]) (by simp [history])
  rcases kept.1 rfl with ⟨b,rfl,alike⟩ | ⟨wrong,-⟩
  · exact ⟨trace',s,a,b,run',by simp [history],by simp [history],alike⟩
  · contradiction

end GophProfile.Gallery
