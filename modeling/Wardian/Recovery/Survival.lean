/-
Editor recovery survives crashes.

As long as no crash leaves a part of a blob in a committed record, or a part of a record that was being
discarded, the store follows its table of notes: every recovery is readable with the texts of its last
committed checkpoint, and an interrupted checkpoint can be made again.  A part of a blob blocks its own
retry: the file under the name of the text is taken for another one, until a sweep removes it after the
grace period.

Main results:

* `Recovery.run_good` — what holds after every undisturbed run;
* `Recovery.survives_of_undisturbed` — the promise is kept;
* `Recovery.not_survives` — a torn blob breaks it.
-/

import Wardian.Recovery.Rounds

set_option autoImplicit false

namespace Wardian.Recovery

open Results
open Prog (Wp wp_and wp_bind wp_ite wp_mono wp_run)

variable {backend : Backend} {texts : String → Prop} {env : Env} {call : Call}
  {crash : Option Crash} {disk disk' : Disk} {request : CheckpointRequest}
  {manifest : FileRecoveryManifestV1} {rounds : List Round}

/-! ### Runs -/

variable {text : String}

theorem Submitted.mono (round : Round) (h : Submitted rounds text) : Submitted (rounds ++ [round]) text := by
  obtain ⟨other, hmem, hrest⟩ := h
  exact ⟨other, List.mem_append_left _ hmem, hrest⟩

theorem Undisturbed.init {round : Round} (h : Undisturbed backend (rounds ++ [round])) :
    Undisturbed backend rounds where
  each other hoth := h.each other (List.mem_append_left _ hoth)
  distinct text text' htext htext' := h.distinct text text' (htext.mono round) (htext'.mono round)

theorem step_round (hgood : Good backend texts disk) (hfrs : Fresh backend env disk)
    (htexts : ∀ request, call = .checkpoint request → texts request.submittedBase ∧ texts request.buffer)
    (hundi : (roundOf backend env call crash disk).Undisturbed backend) :
    Good backend texts (roundOf backend env call crash disk).after ∧
      Notes.Step call (roundOf backend env call crash disk).outcome (noteOf disk)
        (noteOf (roundOf backend env call crash disk).after) := by
  cases call with
  | checkpoint request =>
    obtain ⟨hbase, hbuf⟩ := htexts request rfl
    exact step_checkpoint hgood hfrs hbase hbuf hundi
  | get id key scope =>
    exact step_of_gentle ((gentle_getRecovery id key scope _).bind fun _ _ => Gentle.pure _ _)
      hgood (by simp) (by simp)
  | list key scope =>
    exact step_of_gentle ((gentle_listRecoveries key scope _).bind fun _ _ => Gentle.pure _ _)
      hgood (by simp) (by simp)
  | discard id expected key scope => exact step_discard hgood hundi
  | merge id expected key scope resourceId =>
    exact step_of_gentle ((gentle_mergeRecovery id expected key scope resourceId _).bind
      fun _ _ => Gentle.pure _ _) hgood (by simp) (by simp)
  | sweep =>
    exact step_of_gentle ((Gentle.sweep _ _ _).bind fun _ _ => Gentle.pure _ _) hgood (by simp)
      (by simp)

theorem manifestOf_empty (id : String) : Disk.manifestOf ∅ id = none := by
  unfold Disk.manifestOf
  rw [Table.lookup_empty]
  rfl

theorem good_empty (backend : Backend) (texts : String → Prop) : Good backend texts ∅ where
  sound := {
    known := by
      intro id hid
      rw [Table.lookup_empty] at hid
      cases hid
    readable := by
      intro id manifest hman
      rw [manifestOf_empty] at hman
      cases hman }
  whole := by
    intro id manifest name file hman
    rw [manifestOf_empty] at hman
    cases hman

/-- **What holds after every undisturbed run.** -/
theorem run_good (h : Run backend rounds disk) :
    Undisturbed backend rounds →
      Good backend (Submitted rounds) disk ∧ Notes.Runs rounds (noteOf disk) := by
  induction h with
  | start =>
    intro _
    refine ⟨good_empty backend _, ?_⟩
    have hnone : noteOf ∅ = fun _ => none := funext fun id => noteOf_eq_none (manifestOf_empty id)
    rw [hnone]
    exact Notes.Runs.start
  | @round rounds disk env call crash hrun hfrs ih =>
    intro hundi
    obtain ⟨hgood, hruns⟩ := ih hundi.init
    have hgr : Good backend (Submitted (rounds ++ [roundOf backend env call crash disk])) disk :=
      ⟨hgood.sound, hgood.whole.mono fun _ htext => htext.mono _⟩
    have hlast := List.mem_append_right rounds
      (List.mem_singleton_self (roundOf backend env call crash disk))
    obtain ⟨hgood', hstep⟩ := step_round hgr hfrs
      (fun request heq => ⟨⟨_, hlast, request, heq, Or.inl rfl⟩,
        ⟨_, hlast, request, heq, Or.inr rfl⟩⟩) (hundi.each _ hlast)
    exact ⟨hgood', Notes.Runs.round _ hruns hstep⟩

theorem Run.eq_roundOf (h : Run backend rounds disk) {round : Round} (hround : round ∈ rounds) :
    round = roundOf backend round.env round.call round.crash round.before := by
  induction h with
  | start => cases hround
  | round env call crash _ _ ih =>
    rcases List.mem_append.1 hround with hround | hround
    · exact ih hround
    · obtain rfl := List.mem_singleton.1 hround
      rfl

/-! ### Reading -/

variable {id : String}

theorem validateRecoveryBlobMetadata_eq_ok {name : String} (hid : backend.canonicalUuid id = some id)
    (hman : manifest.recoveryId = id) (h : HasText backend disk id name text) :
    ∃ file, validateRecoveryBlobMetadata backend disk manifest name = .ok file ∧
      file.bytes = bytesOf text := by
  obtain ⟨file, hfile, hbts⟩ := h.file
  refine ⟨file, ?_, hbts⟩
  cases hdir : disk[id]? with
  | none =>
    unfold Disk.blobOf at hfile
    rw [hdir] at hfile
    cases hfile
  | some dir =>
    rw [blobOf_eq hdir] at hfile
    have hname : isRecoveryBlobName name = true := by
      rw [h.name]
      exact isRecoveryBlobName_recoveryBlobName backend text
    have hsize := size_of_validateSubmittedText h.valid
    have hnot : ¬backend.limits.monacoMaxSizeBytes < file.bytes.length := by
      rw [hbts]
      omega
    have hboun : boundedBlob backend dir name = .ok file := by
      unfold RecordDir.files at hfile
      unfold boundedBlob
      cases hblobs : dir.blobs with
      | none =>
        rw [hblobs] at hfile
        simp at hfile
      | some blobs =>
        rw [hblobs, Option.getD_some] at hfile
        dsimp only
        rw [hfile]
        exact if_neg hnot
    unfold validateRecoveryBlobMetadata
    rw [hname, if_neg (by simp), hman]
    exact bind_eq_ok.2
      ⟨dir, (validateRecoveryRecordDir_eq_ok backend).2 ⟨hid, hdir⟩, hboun⟩

theorem readRecoveryBlob_eq_ok {name : String} (hid : backend.canonicalUuid id = some id)
    (hman : manifest.recoveryId = id) (h : HasText backend disk id name text) :
    readRecoveryBlob backend disk manifest name = .ok text := by
  obtain ⟨file, hfile, hbts⟩ := validateRecoveryBlobMetadata_eq_ok hid hman h
  refine bind_eq_ok.2 ⟨file, hfile, ?_⟩
  unfold readBlobFile
  rw [hbts, textOf_bytesOf]
  dsimp only
  rw [if_neg (not_not.2 h.name.symm), h.valid]

theorem wp_getRecovery {base buffer : String} (hid : backend.canonicalUuid id = some id)
    (hhld : Holds backend disk id manifest base buffer) :
    Wp (getRecovery backend env id manifest.resourceKey manifest.webviewScope)
      (fun recovery world' => world'.crash = none ∧
        recovery.recoveryRevision = manifest.recoveryRevision ∧ recovery.base = base ∧
        recovery.buffer = buffer)
      (fun _ _ => False) { disk := disk, crash := none } := by
  unfold getRecovery
  rw [wp_bind]
  refine wp_mono (sweeps_sweepRecoveryStore (fun _ => True) env.now _) ?_ ?_
  · rintro _ world' ⟨hqui, hcrs, -⟩
    have hswp := hhld.quiet hqui
    rw [wp_bind, wp_readDisk, wp_bind]
    have hauthd : authorizedManifest backend world'.disk id manifest.resourceKey
        manifest.webviewScope = .ok manifest :=
      authorizedManifest_eq_ok.2
        ⟨⟨hid, hswp.found, hswp.size, hswp.recoveryId, hswp.schema⟩, rfl, rfl⟩
    have htexts : readTexts backend world'.disk manifest = .ok (base, buffer) :=
      bind_eq_ok.2 ⟨base, readRecoveryBlob_eq_ok hid hswp.recoveryId hswp.base,
        bind_eq_ok.2 ⟨buffer,
          readRecoveryBlob_eq_ok hid hswp.recoveryId hswp.buffer, rfl⟩⟩
    rw [hauthd]
    refine wp_check ?_ (fun _ h => by cases h)
    rintro found heq
    obtain rfl := Except.ok.inj heq
    rw [htexts, wp_bind]
    refine wp_check ?_ (fun _ h => by cases h)
    rintro texts' heq
    obtain rfl := Except.ok.inj heq
    exact ⟨hcrs rfl, rfl, rfl, rfl⟩
  · rintro _ _ ⟨-, -, hcrs⟩
    exact hcrs rfl

variable {note : Note}

/-- **Every recovery of the table is read back.** -/
theorem readable_of_sound (hsnd : Sound backend disk) (env : Env)
    (hnote : noteOf disk id = some note) : ∃ recovery : FileRecoveryV1,
      (roundOf backend env (.get id note.resourceKey note.webviewScope) none disk).outcome =
          .answered (.recovery recovery) ∧
        recovery.recoveryRevision = note.revision ∧ recovery.base = note.base ∧
        recovery.buffer = note.buffer := by
  obtain ⟨manifest, hhld, hkey, hscp, hrev⟩ := hsnd.holds_of_note hnote
  have hid : backend.canonicalUuid id = some id := by
    refine hsnd.known id ?_
    have hfnd := hhld.found
    unfold Disk.manifestOf at hfnd
    cases hdir : disk[id]? with
    | none =>
      rw [hdir] at hfnd
      cases hfnd
    | some dir => rfl
  have hperf : Wp (perform backend env (.get id note.resourceKey note.webviewScope))
      (fun answer world' => world'.crash = none ∧ ∃ recovery : FileRecoveryV1,
        answer = .recovery recovery ∧ recovery.recoveryRevision = note.revision ∧
        recovery.base = note.base ∧ recovery.buffer = note.buffer)
      (fun _ _ => False) { disk := disk, crash := none } := by
    unfold perform
    rw [← hkey, ← hscp, ← hrev, wp_bind]
    refine wp_mono (wp_getRecovery hid hhld) ?_ (fun _ _ h => h)
    rintro recovery world' ⟨hcrs, hrest⟩
    exact ⟨hcrs, recovery, rfl, hrest⟩
  rcases round_of_wp hperf with
    ⟨_, world, ⟨hcrs, recovery, rfl, hrest⟩, -, hout | ⟨-, hne⟩⟩ | ⟨_, _, h, -⟩ | ⟨_, _, h, -⟩
  · exact ⟨recovery, hout, hrest⟩
  · exact absurd hcrs hne
  · exact h.elim
  · exact h.elim

/-! ### Calls that expect another revision -/

theorem after_sweep (env : Env) (crash : Option Crash) (disk : Disk) :
    (roundOf backend env .sweep crash disk).after =
      (sweepRecoveryStore backend env.now { disk := disk, crash := crash }).2.disk := by
  have hwp : Wp (perform backend env .sweep)
      (fun _ world' =>
        world' = (sweepRecoveryStore backend env.now { disk := disk, crash := crash }).2)
      (fun _ world' =>
        world' = (sweepRecoveryStore backend env.now { disk := disk, crash := crash }).2)
      { disk := disk, crash := crash } := by
    unfold perform
    rw [wp_bind]
    refine wp_mono (wp_run _ _) ?_ ?_
    · intro _ world' heq
      rw [heq]
      rfl
    · intro _ world' heq
      rw [heq]
  exact congrArg World.disk hwp.final

/-- The call changes at most what its sweep does, and is not answered. -/
def Refused {α : Type} (backend : Backend) (env : Env) (prog : RecoveryM α) (world : World) : Prop :=
  Wp prog (fun _ _ => False)
    (fun _ world' => world'.disk = world.disk ∨
      world'.disk = (sweepRecoveryStore backend env.now world).2.disk) world

variable {world : World}

theorem refused_after_sweep {α β : Type} {check' : Disk → Except FileResourceErrorV1 α}
    {next : Disk → α → RecoveryM β}
    (h : ∀ swept, Quiet backend (fun _ => True) none world.disk swept →
      ∃ failure, check' swept = .error failure) :
    Refused backend env (do
      sweepRecoveryStore backend env.now
      let disk ← readDisk
      let a ← check (check' disk)
      next disk a) world := by
  unfold Refused
  rw [wp_bind]
  refine wp_mono (wp_and (wp_run _ _) (Gentle.sweep (fun _ => True) _ _))
    ?_ ?_
  · rintro _ world' ⟨hrun, hqui⟩
    obtain ⟨failure, hflr⟩ := h world'.disk hqui
    rw [wp_bind, wp_readDisk, hflr, wp_bind]
    refine wp_check (fun _ h => by cases h) ?_
    intro _ _
    right
    rw [hrun]
  · rintro _ world' ⟨hrun, -⟩
    right
    rw [hrun]

theorem Refused.bind {α β : Type} {prog : RecoveryM α} {next : α → RecoveryM β}
    (h : Refused backend env prog world) : Refused backend env (prog >>= next) world := by
  unfold Refused
  rw [wp_bind]
  exact wp_mono h (fun _ _ h => h.elim) (fun _ _ h => h)

theorem refused_check {α β : Type} {result : Except FileResourceErrorV1 α} {next : α → RecoveryM β}
    (h : ∀ a, result = .ok a → Refused backend env (next a) world) :
    Refused backend env (check result >>= next) world := by
  unfold Refused
  rw [wp_bind]
  exact wp_check h fun _ _ => Or.inl rfl

variable {expected : Option Nat}

theorem error_of_currentManifest (resourceKey webviewScope : String) (hsnd : Sound backend disk)
    (hnote : noteOf disk id = some note) (hoth : expected ≠ some note.revision)
    (hqui : Quiet backend (fun _ => True) none disk disk') :
    ∃ failure, currentManifest backend disk' id resourceKey webviewScope expected =
      .error failure := by
  cases hcur : currentManifest backend disk' id resourceKey webviewScope expected with
  | error failure => exact ⟨failure, rfl⟩
  | ok manifest =>
    exfalso
    obtain ⟨hauthd, hexpd⟩ := currentManifest_eq_ok.1 hcur
    obtain ⟨⟨-, hman, -, -, -⟩, -, -⟩ := authorizedManifest_eq_ok.1 hauthd
    rw [hqui.manifest] at hman
    obtain ⟨found, hhld, -, -, hrev⟩ := hsnd.holds_of_note hnote
    obtain rfl := Option.some.inj (hman.symm.trans hhld.found)
    rw [hrev] at hexpd
    exact hoth hexpd

/-- **A call that expects another revision does no more than its sweep, and is not answered.** -/
theorem guarded_of_sound (hsnd : Sound backend disk) (env : Env) (crash : Option Crash)
    (hnote : noteOf disk id = some note)
    (hexpe : Notes.Expects id call expected) (hoth : expected ≠ some note.revision) :
    ((roundOf backend env call crash disk).after = disk ∨
      (roundOf backend env call crash disk).after = (roundOf backend env .sweep crash disk).after) ∧
    ∀ answer, (roundOf backend env call crash disk).outcome ≠ .answered answer := by
  have hrfsd : Refused backend env (perform backend env call)
      { disk := disk, crash := crash } := by
    cases hexpe with
    | checkpoint request hid =>
      refine Refused.bind (refused_check fun _ _ => refused_check fun descriptor _ => ?_)
      refine refused_after_sweep fun swept hqui => ?_
      obtain ⟨failure, hflr⟩ := error_of_currentManifest request.resourceKey
        request.webviewScope hsnd hnote hoth hqui
      refine ⟨failure, ?_⟩
      unfold prepareManifest
      rw [hid]
      dsimp only
      rw [hflr]
      rfl
    | discard expected resourceKey webviewScope =>
      exact Refused.bind (refused_after_sweep fun swept hqui =>
        error_of_currentManifest _ _ hsnd hnote hoth hqui)
    | merge expected resourceKey webviewScope resourceId =>
      refine Refused.bind (refused_check fun descriptor _ => ?_)
      refine wp_ite (fun _ => Or.inl rfl) fun _ => ?_
      exact refused_after_sweep fun swept hqui =>
        error_of_currentManifest _ _ hsnd hnote hoth hqui
  rw [after_sweep]
  rcases round_of_wp hrfsd with ⟨_, _, h, -⟩ | ⟨_, world, h, haft, hout⟩ |
    ⟨_, world, h, haft, hout⟩
  · exact h.elim
  · rw [haft, hout]
    exact ⟨h, by simp⟩
  · rw [haft, hout]
    exact ⟨h, by simp⟩

/-! ### Retrying -/

theorem code_of_enforceRecoveryAdmission {base buffer : String} {failure : FileResourceErrorV1}
    (hid : backend.canonicalUuid id = some id)
    (h : enforceRecoveryAdmission backend disk id base buffer = .error failure) :
    failure.code = "recovery_capacity_exceeded" := by
  unfold enforceRecoveryAdmission at h
  rw [(checkRecoveryId_eq_ok backend).2 hid] at h
  change (if _ then _ else _) = _ at h
  split at h
  · obtain rfl := Except.error.inj h
    rfl
  · split at h
    · obtain rfl := Except.error.inj h
      rfl
    · cases h

/-- A checkpoint that crashed had passed the checks of its request. -/
theorem validate_of_crashed {point : CrashPoint}
    (h : (roundOf backend env (.checkpoint request) crash disk).outcome = .crashed point) :
    request.validate backend = .ok () := by
  cases hval : request.validate backend with
  | ok _ => rfl
  | error failure =>
    exfalso
    have hperf : perform backend env (.checkpoint request) { disk := disk, crash := crash } =
        (.error (.failed failure), { disk := disk, crash := crash }) := by
      change Prog.andThen (Prog.andThen (check (request.validate backend)) _) _ _ = _
      rw [hval]
      rfl
    unfold roundOf at h
    rw [hperf] at h
    cases h

/-- **A checkpoint that no crash interrupts goes**, where its texts are whole in the store and are the
only ones of their names. -/
theorem goes_of_good {authorized : Option FileDescriptor} (request : CheckpointRequest) (hgood : Good backend texts disk)
    (hdist : ∀ text text', texts text → texts text' →
      recoveryBlobName backend text = recoveryBlobName backend text' → text = text')
    (hbase : texts request.submittedBase) (hbuf : texts request.buffer)
    (hval : request.validate backend = .ok ())
    (hauth : request.authorizeNew backend env = .ok authorized)
    (hprep : ∀ swept, Quiet backend texts none disk swept → ∃ manifest,
      prepareManifest backend env request authorized swept = .ok manifest ∧
      backend.canonicalUuid manifest.recoveryId = some manifest.recoveryId ∧
      ((disk.manifestOf manifest.recoveryId).isSome ∨ disk[manifest.recoveryId]? = none) ∧
      manifest.recoveryRevision < u64Max) :
    (roundOf backend env (.checkpoint request) none disk).outcome.Goes := by
  have hcp : Wp (perform backend env (.checkpoint request))
      (fun answer world' => world'.crash = none ∧ ∃ checkpoint, answer = .checkpointed checkpoint)
      (fun stop _ => ∃ failure, stop = .failed failure ∧
        failure.code = "recovery_capacity_exceeded") { disk := disk, crash := none } := by
    unfold perform checkpointRecovery
    rw [wp_bind, wp_bind, hval]
    refine wp_check ?_ (fun _ h => by cases h)
    intro _ _
    rw [wp_bind, hauth]
    refine wp_check ?_ (fun _ h => by cases h)
    intro descriptor heq
    obtain rfl := Except.ok.inj heq
    rw [wp_bind]
    refine wp_mono (sweeps_sweepRecoveryStore texts env.now _) ?_ ?_
    · rintro _ swept ⟨hqui, hcrs, -⟩
      obtain ⟨manifest, hman, hcan, hrec, hrev⟩ := hprep swept.disk hqui
      rw [wp_bind, wp_readDisk, wp_bind, hman]
      refine wp_check ?_ (fun _ h => by cases h)
      intro found heq
      obtain rfl := Except.ok.inj heq
      rw [wp_bind]
      refine wp_check ?_ fun failure h =>
        ⟨failure, rfl, code_of_enforceRecoveryAdmission hcan h⟩
      intro _ _
      rw [wp_bind]
      refine wp_mono (wp_writeRecoveryCheckpoint hcan hbase hbuf) ?_ ?_
      · rintro committed world' ⟨-, -, hcrs'⟩
        exact ⟨hcrs' (hcrs rfl), _, rfl⟩
      · rintro stop world' ⟨-, hrfsd⟩
        exfalso
        rcases hrfsd (hcrs rfl) with ⟨text, file, htext, hbts, hfile⟩ | hexha
        · -- Every file of the record has the whole of its text, which is the only one of its name.
          have hwhl : WholeBlob backend texts (recoveryBlobName backend text) file := by
            rcases hfile with hfile | hwhl
            · rcases hqui.grown _ _ _ (by simp) hfile with hfile | hwhl
              · rcases hrec with hsome | hnone
                · obtain ⟨current, hcur⟩ := Option.isSome_iff_exists.1 hsome
                  exact hgood.whole _ current _ file hcur hfile
                · unfold Disk.blobOf at hfile
                  rw [hnone] at hfile
                  cases hfile
              · exact hwhl
            · exact hwhl
          obtain ⟨text', htext', hbts', hname⟩ := hwhl
          obtain rfl := hdist text text' htext htext' hname
          exact hbts hbts'
        · omega
    · rintro _ _ ⟨-, -, hcrs⟩
      exact absurd rfl hcrs
  rcases round_of_wp hcp with
    ⟨_, world, ⟨hcrs, checkpoint, rfl⟩, -, hout | ⟨-, hne⟩⟩ |
    ⟨failure, world, ⟨_, heq, hcode⟩, -, hout⟩ | ⟨_, _, ⟨_, heq, -⟩, -⟩
  · exact Or.inl ⟨checkpoint, hout⟩
  · exact absurd hcrs hne
  · cases heq
    exact Or.inr ⟨failure, hout, hcode⟩
  · cases heq

theorem goes_update (hgood : Good backend texts disk)
    (hdist : ∀ text text', texts text → texts text' →
      recoveryBlobName backend text = recoveryBlobName backend text' → text = text')
    (hbase : texts request.submittedBase) (hbuf : texts request.buffer)
    (hval : request.validate backend = .ok ()) (env : Env)
    (hnote : noteOf disk id = some note) (hkey : note.resourceKey = request.resourceKey)
    (hscp : note.webviewScope = request.webviewScope) (hrev : note.revision < u64Max) :
    (roundOf backend env (.checkpoint (request.retry (some id) (some note.revision))) none
      disk).outcome.Goes := by
  obtain ⟨manifest, hhld, hkey', hscp', hrev'⟩ := hgood.sound.holds_of_note hnote
  have hid : backend.canonicalUuid id = some id := by
    refine hgood.sound.known id ?_
    have hfnd := hhld.found
    unfold Disk.manifestOf at hfnd
    cases hdir : disk[id]? with
    | none =>
      rw [hdir] at hfnd
      cases hfnd
    | some dir => rfl
  refine goes_of_good (request.retry (some id) (some note.revision)) hgood hdist hbase
    hbuf hval rfl ?_
  intro swept hqui
  have hswp := hhld.quiet hqui
  have hcur : currentManifest backend swept id request.resourceKey request.webviewScope
      (some note.revision) = .ok manifest := by
    rw [currentManifest_eq_ok, authorizedManifest_eq_ok]
    exact ⟨⟨⟨hid, hswp.found, hswp.size, hswp.recoveryId, hswp.schema⟩,
      hkey'.trans hkey, hscp'.trans hscp⟩, by rw [hrev']⟩
  refine ⟨updatedManifest env (request.retry (some id) (some note.revision)) manifest, ?_, ?_, ?_, ?_⟩
  · exact bind_eq_ok.2 ⟨manifest, hcur, rfl⟩
  · rw [updatedManifest_recoveryId, hhld.recoveryId]
    exact hid
  · left
    rw [updatedManifest_recoveryId, hhld.recoveryId, hhld.found]
    rfl
  · rw [updatedManifest_recoveryRevision, hrev']
    exact hrev

theorem goes_create (hgood : Good backend texts disk)
    (hdist : ∀ text text', texts text → texts text' →
      recoveryBlobName backend text = recoveryBlobName backend text' → text = text')
    (hbase : texts request.submittedBase) (hbuf : texts request.buffer)
    (hval : request.validate backend = .ok ()) {descriptor : FileDescriptor}
    (hfrs : Fresh backend env disk) (hlive : env.live = .ok descriptor)
    (hmat : request.matchesFile backend descriptor = true) :
    (roundOf backend env (.checkpoint (request.retry none none)) none disk).outcome.Goes := by
  have hmat' : (request.retry none none).matchesFile backend descriptor = true := hmat
  have hauth : (request.retry none none).authorizeNew backend env = .ok (some descriptor) := by
    change (env.live >>= fun descriptor => _) = _
    rw [hlive]
    change (if _ then _ else _) = _
    rw [hmat']
    rfl
  refine goes_of_good (request.retry none none) hgood hdist hbase hbuf hval
    hauth ?_
  intro swept _
  refine ⟨newManifest env (request.retry none none) descriptor, rfl, hfrs.1, Or.inr hfrs.2, ?_⟩
  change 0 < u64Max
  decide

/-! ### The promise -/

/-- **Editor recovery survives every undisturbed run.** -/
theorem survives_of_undisturbed (hrun : Run backend rounds disk)
    (hundi : Undisturbed backend rounds) : Survives backend rounds disk := by
  obtain ⟨hgood, hruns⟩ := run_good hrun hundi
  constructor
  · exact hruns
  · intro before round after request checkpoint hrounds hcall hout haft
    exact hruns.kept hrounds hcall hout haft
  · intro env id note hnote
    exact readable_of_sound hgood.sound env hnote
  · intro env crash id manifest name file hman hnms hfile
    have hgentle : Gentle backend (fun _ => True) (perform backend env .sweep)
        { disk := disk, crash := crash } := (Gentle.sweep _ _ _).bind fun _ _ => Gentle.pure _ _
    rcases round_of_wp hgentle with ⟨_, world, hqui, haft, -⟩ | ⟨_, world, hqui, haft, -⟩ |
      ⟨_, world, hqui, haft, -⟩
    · rw [haft]
      exact hqui.named id manifest name file hman hnms hfile
    · rw [haft]
      exact hqui.1.named id manifest name file hman hnms hfile
    · rw [haft]
      exact hqui.1.named id manifest name file hman hnms hfile
  · intro env call crash id expected note hnote hexpe hoth
    exact guarded_of_sound hgood.sound env crash hnote hexpe hoth
  · intro round hround request point hcall hout
    have hsrv := hrun.eq_roundOf hround
    rw [hcall] at hsrv
    rw [hsrv] at hout
    have hval := validate_of_crashed hout
    have hbase : Submitted rounds request.submittedBase := ⟨round, hround, request, hcall, Or.inl rfl⟩
    have hbuf : Submitted rounds request.buffer := ⟨round, hround, request, hcall, Or.inr rfl⟩
    constructor
    · intro env id note hnote hkey hscp hrev
      exact goes_update hgood hundi.distinct hbase hbuf hval env hnote hkey hscp
        hrev
    · intro env descriptor hfrs hlive hmat
      exact goes_create hgood hundi.distinct hbase hbuf hval hfrs hlive hmat

/-! ### A torn blob -/

/-- The digest of three texts. -/
def sampleSha256 (bytes : List UInt8) : Vector UInt8 32 :=
  if bytes = bytesOf "a" then
    #v[0xca, 0x97, 0x81, 0x12, 0xca, 0x1b, 0xbd, 0xca, 0xfa, 0xc2, 0x31, 0xb3, 0x9a, 0x23, 0xdc, 0x4d,
      0xa7, 0x86, 0xef, 0xf8, 0x14, 0x7c, 0x4e, 0x72, 0xb9, 0x80, 0x77, 0x85, 0xaf, 0xee, 0x48, 0xbb]
  else if bytes = bytesOf "ab" then
    #v[0xfb, 0x8e, 0x20, 0xfc, 0x2e, 0x4c, 0x3f, 0x24, 0x8c, 0x60, 0xc3, 0x9b, 0xd6, 0x52, 0xf3, 0xc1,
      0x34, 0x72, 0x98, 0xbb, 0x97, 0x7b, 0x8b, 0x4d, 0x59, 0x03, 0xb8, 0x50, 0x55, 0x62, 0x06, 0x03]
  else
    #v[0xba, 0x78, 0x16, 0xbf, 0x8f, 0x01, 0xcf, 0xea, 0x41, 0x41, 0x40, 0xde, 0x5d, 0xae, 0x22, 0x23,
      0xb0, 0x03, 0x61, 0xa3, 0x96, 0x17, 0x7a, 0x9c, 0xb4, 0x10, 0xff, 0x61, 0xf2, 0x00, 0x15, 0xad]

def sampleId : String := "9b2f8e1c-3a47-4c1d-8e52-6f0a7d1b2c3e"

def sampleNextId : String := "5c9d1f60-7be2-4f0e-a1c4-08d3b6e2f917"

def sampleBackend : Backend :=
  { sha256 := sampleSha256
    canonicalUuid := fun id => if id = sampleId ∨ id = sampleNextId then some id else none
    fileResourceId := fun path => "file:" ++ path
    limits :=
      { monacoMaxSizeBytes := 16 * 1024 * 1024
        monacoMaxLineCount := 200000
        diffMaxSizeBytesPerSide := 5 * 1024 * 1024
        diffMaxLineCount := 100000 }
    storeLimits :=
      { maxRecords := 128
        maxBodyBytes := 512 * 1024 * 1024
        orphanGracePeriod := 24 * 60 * 60 * 1000 }
    notFound := "No such file or directory (os error 2)" }

def sampleDescriptor : FileDescriptor :=
  { canonicalPath := "/work/draft.txt"
    displayName := "draft.txt"
    extension := some "txt"
    mimeType := "text/plain" }

def sampleEnv (now : Nat) (newRecoveryId : String) : Env :=
  { now := now
    newRecoveryId := newRecoveryId
    newBaseRevision := "4d0c1c8e-98c5-4a8e-9d0b-2f3f6c8a7b10"
    live := .ok sampleDescriptor
    probe := .ok sampleDescriptor }

/-- The first checkpoint of a draft. -/
def sampleRequest : CheckpointRequest :=
  { recoveryId := none
    expectedRecoveryRevision := none
    resourceId := "file:/work/draft.txt"
    baseContentHash := "sha256:ca978112ca1bbdcafac231b39a23dc4da786eff8147c4e72b9807785afee48bb"
    submittedBase := "a"
    resourceKey := "file:/work/draft.txt"
    webviewScope := "main"
    buffer := "ab" }

/-- The next checkpoint of it. -/
def sampleUpdate : CheckpointRequest :=
  { sampleRequest with
    recoveryId := some sampleId
    expectedRecoveryRevision := some 1
    buffer := "abc" }

def sampleCreated : Round :=
  roundOf sampleBackend (sampleEnv 1000 sampleId) (.checkpoint sampleRequest) none ∅

/-- The crash comes in the write of the second blob. -/
def sampleCrash (written : Option Nat) : Crash := { after := 4, written := written, kept := none }

def sampleInterrupted (written : Option Nat) : Round :=
  roundOf sampleBackend (sampleEnv 2000 sampleNextId) (.checkpoint sampleUpdate) (some (sampleCrash written))
    sampleCreated.after

/-- The run of the two checkpoints. -/
def sampleRounds (written : Option Nat) : List Round :=
  [sampleCreated, sampleInterrupted written]

/-- What evaluation says about the manifests of the two checkpoints, -/
theorem sampleRounds_small : (∀ found ∈ sampleRequest.start (sampleEnv 1000 sampleId) ∅,
      (committedManifest sampleBackend found "a" "ab" 1000).size ≤ maxManifestSize) ∧
    ∀ found ∈ sampleUpdate.start (sampleEnv 2000 sampleNextId) sampleCreated.after,
      (committedManifest sampleBackend found "a" "abc" 2000).size ≤ maxManifestSize := by
  decide +kernel

theorem sampleRounds_none : sampleCreated.after[sampleNextId]?.isNone = true ∧
    (sampleCreated.outcome ≠ .crashed .inBlobWrite ∧ sampleCreated.outcome ≠ .crashed .inRemoval) ∧
    ((sampleInterrupted none).outcome ≠ .crashed .inBlobWrite ∧
      (sampleInterrupted none).outcome ≠ .crashed .inRemoval) := by
  decide +kernel

/-- and when it keeps one byte: the note is there, and the checkpoint is refused. -/
theorem sampleRounds_torn : (sampleInterrupted (some 1)).outcome = .crashed .inBlobWrite ∧
    noteOf (sampleInterrupted (some 1)).after sampleId = some (sampleRequest.note 1) ∧
    (roundOf sampleBackend (sampleEnv 3000 sampleNextId)
      (.checkpoint (sampleUpdate.retry (some sampleId) (some 1))) none
      (sampleInterrupted (some 1)).after).outcome =
      .failed (error "invalid_recovery"
        "existing recovery blob is not the expected bounded ordinary file") := by
  decide +kernel

theorem run_sampleRounds (written : Option Nat) :
    Run sampleBackend (sampleRounds written) (sampleInterrupted written).after := by
  have hfst : Run sampleBackend [sampleCreated] sampleCreated.after :=
    Run.round _ _ _ Run.start ⟨by decide, Table.lookup_empty _⟩
  exact Run.round _ _ _ hfst ⟨by decide, Option.isNone_iff_eq_none.1 sampleRounds_none.1⟩

theorem submitted_sampleRounds {written : Option Nat}
    (h : Submitted (sampleRounds written) text) : text ∈ ["a", "ab", "abc"] := by
  obtain ⟨round, hround, request, hcall, htext⟩ := h
  rcases List.mem_cons.1 hround with rfl | hround
  · obtain rfl := Call.checkpoint.inj hcall
    rcases htext with rfl | rfl <;> decide
  · obtain rfl := List.mem_singleton.1 hround
    obtain rfl := Call.checkpoint.inj hcall
    rcases htext with rfl | rfl <;> decide

theorem survives_of_undisturbed_sample :
    Survives sampleBackend (sampleRounds none) (sampleInterrupted none).after := by
  obtain ⟨-, ⟨hwhl, hkept⟩, hwhl', hkept'⟩ := sampleRounds_none
  obtain ⟨hsml, hsml'⟩ := sampleRounds_small
  refine survives_of_undisturbed (run_sampleRounds none) ⟨?_, ?_⟩
  · intro round hround
    rcases List.mem_cons.1 hround with rfl | hround
    · refine ⟨fun h => absurd h hwhl, hkept, ?_⟩
      intro request manifest hcall hstart
      obtain rfl := Call.checkpoint.inj hcall
      exact hsml manifest hstart
    · obtain rfl := List.mem_singleton.1 hround
      refine ⟨fun h => absurd h hwhl', hkept', ?_⟩
      intro request manifest hcall hstart
      obtain rfl := Call.checkpoint.inj hcall
      exact hsml' manifest hstart
  · intro text text' htext htext'
    have hall : ∀ text ∈ ["a", "ab", "abc"], ∀ text' ∈ ["a", "ab", "abc"],
        recoveryBlobName sampleBackend text = recoveryBlobName sampleBackend text' →
        text = text' := by
      decide
    exact hall text (submitted_sampleRounds htext) text' (submitted_sampleRounds htext')

/-- **A torn blob breaks the promise**: one byte of the second buffer is under the name of its blob, and
the same checkpoint is refused, as the file is not the expected one. -/
theorem not_survives : ¬∀ (backend : Backend) (rounds : List Round) (disk : Disk),
    Run backend rounds disk → Survives backend rounds disk := by
  intro h
  have hsurv := h sampleBackend _ _ (run_sampleRounds (some 1))
  obtain ⟨hcras, hnote, hrfsd⟩ := sampleRounds_torn
  have hretr := hsurv.retried (sampleInterrupted (some 1)) (by simp [sampleRounds])
    sampleUpdate .inBlobWrite rfl hcras
  have hgoes := hretr.1 (sampleEnv 3000 sampleNextId) sampleId _ hnote rfl rfl (by decide)
  rcases hgoes with ⟨checkpoint, hgoes⟩ | ⟨failure, hgoes, hcode⟩
  · rw [show (sampleRequest.note 1).revision = 1 from rfl, hrfsd] at hgoes
    cases hgoes
  · rw [show (sampleRequest.note 1).revision = 1 from rfl, hrfsd] at hgoes
    obtain rfl := Outcome.failed.inj hgoes
    exact absurd hcode (by decide)

end Wardian.Recovery
