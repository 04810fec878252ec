import TensorOS.Fs.Refine
import TensorOS.Image.RoundTrip

/-!
# Runs with checkpoints

A file system may be exported to an image at any time when nothing is open, and go on as the file
system that an import of the image makes, over whatever was there before. The runs below mix such
checkpoints with calls. In every run the calls are answered as by one store that has never heard of
nodes or images, so a checkpoint cannot be told from doing nothing.
-/

namespace TensorOS

variable {fs fs' fs₁ : RuntimeFs} {trace : List (FsCall × FsAnswer)}

/-! ## The imported file system -/

/-- What has the same tree as an intact file system, nothing open and its unused nodes cleared, is
intact. -/
theorem SameTree.intact (hsame : SameTree fs fs') (h : Intact fs) (hsane : Sane fs')
    (hcleared : ∀ i, (fs.nodes i).used = 0 → NodeOk (fs'.nodes i) ∧ (fs'.nodes i).parent = 0)
    (hclosed : ∀ s, (fs'.openFiles s).used = 0) : Intact fs' := by
  have hparent : ∀ i, (fs.nodes i).used ≠ 0 → (fs'.nodes i).parent = (fs.nodes i).parent := by
    intro i hu
    rw [RuntimeFsNode.parent, RuntimeFsNode.parent, hsame.parent i hu]
  have hused : ∀ i, (fs'.nodes i).used ≠ 0 → (fs.nodes i).used ≠ 0 := by
    intro i hu
    rwa [hsame.used] at hu
  have hrooted : ∀ i, Rooted (fun j ↦ (fs'.nodes j).parent) 0 i := by
    intro i
    by_cases hu : (fs.nodes i).used = 0
    · by_cases hi : i = 0
      · rw [hi]
        exact .root
      · refine .step hi ?_
        rw [(hcleared i hu).2]
        exact .root
    · exact (h.sound.nodes.rooted i).congr fun j hj ↦
        hparent j (h.sound.nodes.used_of_onChain hu hj)
  have hnode : ∀ i, NodeOk (fs'.nodes i) := by
    intro i
    by_cases hu : (fs.nodes i).used = 0
    · exact (hcleared i hu).1
    have hn := h.sound.nodes.node i
    have hu' : (fs'.nodes i).used ≠ 0 := by rwa [hsame.used]
    have hterminated : ∃ k, (fs'.nodes i).name k = 0 := by
      by_cases hi : i = 0
      · rw [hi]
        exact ⟨1, hsane.root.name_one⟩
      · exact (hsane.nodes i hi hu').terminated
    constructor
    · rw [hsame.used]
      exact hn.flag
    · rw [hsame.parent i hu]
      exact hn.parent_lt
    · exact fun hzero ↦ absurd hzero hu'
    · rw [hsame.type i hu]
      exact fun _ ↦ hn.kind hu
    · exact fun _ ↦ hterminated
    · rw [hsame.text i hu]
      exact fun _ ↦ hn.text_ne hu
    · rw [hsame.size i hu]
      exact hn.size_le
    · rw [hsame.type i hu, hsame.size i hu]
      exact hn.dir_size
    · rw [hsame.size i hu, hsame.data i hu]
      exact hn.tail_zero
  refine ⟨⟨⟨hnode, fun _ ↦ hsane.root.type, ?_, fun i hi hu ↦ ?_, fun i hu ↦ ?_, hrooted,
    fun i j hi hj hp ht ↦ ?_⟩, fun s hs ↦ absurd (hclosed s) hs⟩, hsane.root⟩
  · rw [hsame.owner 0 h.root.used]
    exact h.sound.nodes.root_owner
  · rw [hsame.text i (hused i hu)]
    exact h.sound.nodes.text_slash i hi (hused i hu)
  · right
    rw [hparent i (hused i hu), hsame.used, hsame.type _ (h.parent_used (hused i hu))]
    exact ⟨h.parent_used (hused i hu), h.parent_type (hused i hu)⟩
  · rw [hparent i (hused i hi), hparent j (hused j hj)] at hp
    rw [hsame.text i (hused i hi), hsame.text j (hused j hj)] at ht
    exact h.sound.nodes.siblings i j (hused i hi) (hused j hj) hp ht

theorem SameTree.chainNames_eq (hsame : SameTree fs fs') (h : Intact fs) {i : Fin 16}
    (hu : (fs.nodes i).used ≠ 0) : fs'.chainNames i = fs.chainNames i := by
  refine trail_congr (h.sound.nodes.rooted i) fun j hj ↦ ?_
  have huj := h.sound.nodes.used_of_onChain hu hj
  rw [RuntimeFsNode.parent, RuntimeFsNode.parent, hsame.parent j huj, hsame.text j huj]
  exact ⟨rfl, rfl⟩

/-- Equal trees are the same store, if nothing is open. -/
theorem SameTree.view_eq (hsame : SameTree fs fs') (h : Intact fs)
    (hclosed : ∀ s, (fs.openFiles s).used = 0) (hclosed' : ∀ s, (fs'.openFiles s).used = 0) :
    fs'.view = fs.view := by
  refine FileStore.ext ?_ ?_
  · have hpresent : ∀ i, (fs'.nodes i).used ≠ 0 ↔ (fs.nodes i).used ≠ 0 := by
      intro i
      rw [hsame.used]
    have hentry : ∀ i, (fs.nodes i).used ≠ 0 → (fs'.nodes i).entry = (fs.nodes i).entry := by
      intro i hu
      rw [RuntimeFsNode.entry, RuntimeFsNode.entry, RuntimeFsNode.contents,
        RuntimeFsNode.contents, hsame.owner i hu, hsame.mode i hu, hsame.type i hu,
        hsame.data i hu, hsame.size i hu]
    exact PathTree.ofPaths_congr (fun _ _ ha hb heq ↦ h.chain_inj ha hb heq) hpresent
      (fun i hu ↦ hsame.chainNames_eq h hu) hentry
  · funext s
    rw [RuntimeFs.view_handles, RuntimeFs.view_handles, RuntimeFs.handle, RuntimeFs.handle,
      if_pos (hclosed s), if_pos (hclosed' s)]

/-- An export that answers OK finds nothing open. -/
theorem imageExport_closed {buffer : Option (ℕ → UInt8)} {capacity : UInt32}
    {written written' : Option UInt32} {layout layout' : Option ImageLayout}
    {buffer' : Option (ℕ → UInt8)} (hrun : imageExport fs buffer capacity written layout
      = .ok (Status.ok, buffer', written', layout')) : ∀ s, (fs.openFiles s).used = 0 := by
  have hne : ∀ {status : Int} {b : Option (ℕ → UInt8)} {w : Option UInt32} {l : Option ImageLayout},
      status ≠ Status.ok → (.ok (status, b, w, l) : Except Fault _)
        ≠ .ok (Status.ok, buffer', written', layout') := by
    intro status b w l hstatus heq
    exact hstatus (congrArg Prod.fst (Except.ok.inj heq))
  cases buffer with
  | none => exact absurd hrun (hne (by decide))
  | some bytes =>
    cases written with
    | none => exact absurd hrun (hne (by decide))
    | some w =>
      unfold imageExport at hrun
      dsimp only at hrun
      obtain ⟨status, -, hrun⟩ := bind_eq_ok.mp hrun
      split at hrun
      · exact absurd hrun (hne (by decide))
      split at hrun
      · exact absurd hrun (hne (by decide))
      next hclosed => exact imageHasOpenFiles_eq_false.mp (Bool.not_eq_true _ ▸ hclosed)

/-- **A checkpoint changes nothing.** The import of what was exported answers OK and makes an intact
file system that is the same store. -/
theorem Intact.checkpoint (h : Intact fs) {buffer : Option (ℕ → UInt8)} {capacity n : UInt32}
    {written : Option UInt32} {layout layout' : Option ImageLayout} {bytes : ℕ → UInt8}
    (hexport : imageExport fs buffer capacity written layout
      = .ok (Status.ok, some bytes, some n, layout')) (prior : RuntimeFs)
    (layout₁ : Option ImageLayout) :
    ∃ fs' layout₂, imageImport prior (some bytes) n layout₁ = .ok (Status.ok, fs', layout₂) ∧
      Intact fs' ∧ fs'.view = fs.view := by
  obtain ⟨-, rfl, hstored⟩ := imageExport_eq_ok h.sound hexport
  have hclosed := imageExport_closed hexport
  have haccept := hstored.accepted h.sound h.root
  obtain ⟨fs', _, layout₂, himp, -, hrun, ⟨hclash, -⟩ | ⟨-, rfl⟩⟩ :=
    imageImport_accepted haccept prior layout₁
  · exact absurd hclash (hstored.not_namesClash h.sound)
  have hsame := hstored.sameTree h.sound himp
  have hclosed' : ∀ s, (fs'.openFiles s).used = 0 := by
    intro s
    rw [himp.slots]
    rfl
  have hsane := himp.sane haccept.body haccept.head.count_ne
  have hcleared : ∀ i, (fs.nodes i).used = 0 →
      NodeOk (fs'.nodes i) ∧ (fs'.nodes i).parent = 0 := by
    intro i hu
    rw [himp.cleared i fun k hk hki ↦ himp.used hk (by rw [hki, hsame.used, hu])]
    have hparent : (imageWiped.nodes i).parentIndex.toNat < 16 := by simp [imageWiped]
    have hsize : (imageWiped.nodes i).sizeBytes.toNat ≤ 256 := by simp [imageWiped]
    exact ⟨⟨Or.inl rfl, hparent, fun _ ↦ rfl, fun hne ↦ absurd rfl hne, fun hne ↦ absurd rfl hne,
      fun hne ↦ absurd rfl hne, hsize, fun _ ↦ rfl, fun _ _ ↦ rfl⟩, rfl⟩
  exact ⟨fs', layout₂, hrun, hsame.intact h hsane hcleared hclosed',
    hsame.view_eq h hclosed hclosed'⟩

/-! ## Runs -/

/-- A run of calls, which spare the root and whose sums of offset and size fit 32 bits, with what
they answer, and of checkpoints between them. -/
inductive FsRun : RuntimeFs → List (FsCall × FsAnswer) → RuntimeFs → Prop
  | nil {fs : RuntimeFs} : FsRun fs [] fs
  | call {fs fs' fs'' : RuntimeFs} {call : FsCall} {a : FsAnswer}
      {rest : List (FsCall × FsAnswer)} : call.Fits fs → call.SparesRoot fs →
      call.answer fs = .ok (a, fs') → FsRun fs' rest fs'' → FsRun fs ((call, a) :: rest) fs''
  /-- An export that answers OK, and an import of the image over a file system that may be any. -/
  | checkpoint {fs prior fs' fs'' : RuntimeFs} {buffer : Option (ℕ → UInt8)}
      {capacity n : UInt32} {written : Option UInt32} {layout layout' layout₁ layout₂ :
        Option ImageLayout} {bytes : ℕ → UInt8} {status : Int}
      {rest : List (FsCall × FsAnswer)} :
      imageExport fs buffer capacity written layout
        = .ok (Status.ok, some bytes, some n, layout') →
      imageImport prior (some bytes) n layout₁ = .ok (status, fs', layout₂) →
      FsRun fs' rest fs'' → FsRun fs rest fs''

theorem FsRun.refines (h : Intact fs)
    (hrun : FsRun fs trace fs') : Intact fs' ∧ FileStore.Run fs.view trace fs'.view := by
  induction hrun with
  | nil => exact ⟨h, .nil⟩
  | call hfits hspare hanswer _ ih =>
    obtain ⟨h', hrest⟩ := ih (h.of_answer hspare hanswer)
    exact ⟨h', .cons (h.store_step hfits hspare hanswer) hrest⟩
  | @checkpoint _ prior _ _ _ _ _ _ _ _ layout₁ _ _ _ _ hexport himport _ ih =>
    obtain ⟨fs₁, layout₂, himport', h₁, hview⟩ := h.checkpoint hexport prior layout₁
    obtain ⟨-, hsame⟩ := Prod.mk.inj (Except.ok.inj (himport'.symm.trans himport))
    obtain ⟨rfl, -⟩ := Prod.mk.inj hsame
    obtain ⟨h', hrest⟩ := ih h₁
    exact ⟨h', hview ▸ hrest⟩

/-- **The file system refines the store.** Every run of calls and checkpoints answers as a run of
the calls on the store, from the empty one to the one that the file system represents in the end;
and there every call is answered again. A listing answers what a listing of the store may answer. -/
theorem fileSystem_refines_store
    (hrun : FsRun runtimeFsInit trace fs) :
    FileStore.Run FileStore.init trace fs.view ∧
      ∀ call : FsCall, call.Fits fs → ∃ a fs', call.answer fs = .ok (a, fs') := by
  obtain ⟨h, hstore⟩ := hrun.refines intact_init
  rw [view_init] at hstore
  refine ⟨hstore, fun call hfits ↦ ?_⟩
  obtain ⟨status, fs', hcall, -⟩ := FsCall.run_sound h.sound hfits
  rw [FsCall.run_eq_answer] at hcall
  obtain ⟨⟨a, fs₁⟩, hanswer, -⟩ := map_eq_ok.mp hcall
  exact ⟨a, fs₁, hanswer⟩

/-- After `mkdir("/a")` the theorem speaks of a store with an entry below the root. -/
theorem fileSystem_refines_store_mkdir : ∃ fs a,
    FileStore.Run FileStore.init [(.mkdir 7 (some pathA) 493, a)] fs.view ∧
      (fs.nodes 1).used = 1 ∧
        ∃ a' fs', (FsCall.remove 7 (some pathA)).answer fs = .ok (a', fs') := by
  have hused : ((FsCall.mkdir 7 (some pathA) 493).answer runtimeFsInit).map
      (fun r ↦ (r.2.nodes 1).used) = .ok 1 := by decide +kernel
  obtain ⟨r, hanswer, hnode⟩ := map_eq_ok.mp hused
  have hrun : FsRun runtimeFsInit [(.mkdir 7 (some pathA) 493, r.1)] r.2 :=
    .call trivial trivial hanswer .nil
  obtain ⟨hstore, htotal⟩ := fileSystem_refines_store hrun
  exact ⟨r.2, r.1, hstore, hnode, htotal _ trivial⟩

/-! ## What the store does not show -/

/-- Only a listing has a choice. -/
theorem FileStore.Step.eq {S S₁ S₂ : FileStore} {call : FsCall} {a₁ a₂ : FsAnswer}
    (h₁ : S.Step call a₁ S₁) (h₂ : S.Step call a₂ S₂)
    (hlisting : ∀ object entry, call ≠ .readdir object entry) : a₁ = a₂ ∧ S₁ = S₂ := by
  cases h₁ with
  | readdir _ => exact absurd rfl (hlisting _ _)
  | _ =>
    cases h₂
    exact ⟨rfl, rfl⟩

/-- Which paths name the root does not depend on the file system. -/
theorem Intact.resolve_root_iff (h : Intact fs) {path : Option CString} :
    fsResolvePath fs path = .ok (some 0) ↔
      ∃ p, path = some p ∧ p.charAt 0 = slash ∧ p.names = [] := by
  rw [fsResolvePath_eq h.sound.terminated, Except.ok.injEq]
  cases path with
  | none => simp [RuntimeFs.resolve]
  | some p =>
    rw [h.named.resolve_eq_some_iff, Named.chainNames_root]
    constructor
    · rintro ⟨hslash, -, hnames⟩
      exact ⟨p, rfl, hslash, hnames.symm⟩
    · rintro ⟨_, heq, hslash, hnames⟩
      obtain rfl := Option.some.inj heq
      exact ⟨hslash, h.root.used, hnames.symm⟩

theorem Intact.sparesRoot_congr (h : Intact fs) (h' : Intact fs') (call : FsCall) :
    call.SparesRoot fs' ↔ call.SparesRoot fs := by
  cases call with
  | remove pid path => exact not_congr (h'.resolve_root_iff.trans h.resolve_root_iff.symm)
  | rename pid oldPath newPath =>
    exact not_congr (h'.resolve_root_iff.trans h.resolve_root_iff.symm)
  | _ => exact Iff.rfl

theorem Intact.fits_iff (h : Intact fs) {object size : UInt32} {buffer : Option (ℕ → UInt8)} :
    (FsCall.write object buffer size).Fits fs ↔
      ∀ s handle e, fs.view.lookup object = some (s, handle, e) →
        handle.offset + size.toNat < 2 ^ 32 := by
  rw [h.lookup_eq]
  constructor
  · intro hfits s handle e hlookup
    obtain ⟨s', hs', heq⟩ := Option.map_eq_some_iff.mp hlookup
    obtain ⟨-, heq⟩ := Prod.mk.inj heq
    obtain ⟨rfl, -⟩ := Prod.mk.inj heq
    exact hfits s' hs'
  · intro hfits s hs
    exact hfits s _ _ (by rw [hs]; rfl)

/-- **The store is all there is to see.** Of two intact file systems with one store, the second can
answer whatever the first can, listings apart, and they have one store again. -/
theorem FsRun.of_view_eq (h : Intact fs) (hrun : FsRun fs trace fs₁)
    (hlisting : ∀ r ∈ trace, ∀ object entry, r.1 ≠ .readdir object entry) :
    ∀ fs', Intact fs' → fs'.view = fs.view →
      ∃ fs₁', FsRun fs' trace fs₁' ∧ fs₁'.view = fs₁.view := by
  induction hrun with
  | nil => exact fun fs' _ hview ↦ ⟨fs', .nil, hview⟩
  | @call fs fs₂ _ call a rest hfits hspare hanswer _ ih =>
    intro fs' h' hview
    have hfits' : call.Fits fs' := by
      cases call with
      | write object buffer size =>
        rw [h'.fits_iff, hview, ← h.fits_iff]
        exact hfits
      | _ => trivial
    have hspare' := (h.sparesRoot_congr h' call).mpr hspare
    obtain ⟨status, _, hcall, -⟩ := FsCall.run_sound h'.sound hfits'
    rw [FsCall.run_eq_answer] at hcall
    obtain ⟨⟨a', fs₂'⟩, hanswer', -⟩ := map_eq_ok.mp hcall
    have hstep := h.store_step hfits hspare hanswer
    have hstep' := h'.store_step hfits' hspare' hanswer'
    rw [hview] at hstep'
    obtain ⟨rfl, hview₂⟩ := hstep.eq hstep' (hlisting _ List.mem_cons_self)
    obtain ⟨fs₁', hrest, hview₁⟩ := ih (h.of_answer hspare hanswer)
      (fun r hr ↦ hlisting r (List.mem_cons_of_mem _ hr)) fs₂' (h'.of_answer hspare' hanswer')
      hview₂.symm
    exact ⟨fs₁', .call hfits' hspare' hanswer' hrest, hview₁⟩
  | @checkpoint fs prior fs₂ _ _ _ _ _ _ _ layout₁ _ _ _ _ hexport himport _ ih =>
    -- what has the store of the exported file system has that of the imported one
    intro fs' h' hview
    obtain ⟨fs₃, layout₂, himport', h₂, hview₂⟩ := h.checkpoint hexport prior layout₁
    obtain ⟨-, hsame⟩ := Prod.mk.inj (Except.ok.inj (himport'.symm.trans himport))
    obtain ⟨rfl, -⟩ := Prod.mk.inj hsame
    exact ih h₂ hlisting fs' h' (hview.trans hview₂.symm)

/-- **A checkpoint cannot be observed.** After any run, the import of an export of the present file
system, over any other, answers OK, and what it makes has the same futures: the same traces without
listings, each to the same store. -/
theorem checkpoint_unobservable {past : List (FsCall × FsAnswer)}
    (hrun : FsRun runtimeFsInit past fs) {buffer : Option (ℕ → UInt8)} {capacity n : UInt32}
    {written : Option UInt32} {layout layout' : Option ImageLayout} {bytes : ℕ → UInt8}
    (hexport : imageExport fs buffer capacity written layout
      = .ok (Status.ok, some bytes, some n, layout'))
    (prior : RuntimeFs) (layout₁ : Option ImageLayout) :
    ∃ fs' layout₂, imageImport prior (some bytes) n layout₁ = .ok (Status.ok, fs', layout₂) ∧
      ∀ trace : List (FsCall × FsAnswer),
        (∀ r ∈ trace, ∀ object entry, r.1 ≠ .readdir object entry) → ∀ S : FileStore,
          (∃ fs₁, FsRun fs' trace fs₁ ∧ fs₁.view = S) ↔
            ∃ fs₁, FsRun fs trace fs₁ ∧ fs₁.view = S := by
  obtain ⟨h, -⟩ := hrun.refines intact_init
  obtain ⟨fs', layout₂, himport, h', hview⟩ := h.checkpoint hexport prior layout₁
  refine ⟨fs', layout₂, himport, ?_⟩
  intro trace hlisting S
  constructor
  · rintro ⟨fs₁, htrace, rfl⟩
    exact htrace.of_view_eq h' hlisting fs h hview.symm
  · rintro ⟨fs₁, htrace, rfl⟩
    exact htrace.of_view_eq h hlisting fs' h' hview

/-- `mkdir("/a")` goes as well after the initial file system went through an image of 100 bytes. -/
theorem checkpoint_unobservable_init : ∃ bytes fs' layout₂,
    imageImport runtimeFsInit (some bytes) 100 none = .ok (Status.ok, fs', layout₂) ∧
      ∃ a fs₁, FsRun fs' [(.mkdir 7 (some pathA) 493, a)] fs₁ ∧ a.status = Status.ok := by
  have hexports : (imageExport runtimeFsInit (some fun _ ↦ 0) 512 (some 0) none).map
      (fun r ↦ (r.1, r.2.1.isSome, r.2.2.1)) = .ok (Status.ok, true, some 100) := by
    decide +kernel
  obtain ⟨⟨status, buffer, written, layout'⟩, hexport, hres⟩ := map_eq_ok.mp hexports
  simp only [Prod.mk.injEq] at hres
  obtain ⟨rfl, hsome, rfl⟩ := hres
  obtain ⟨bytes, rfl⟩ := Option.isSome_iff_exists.mp hsome
  obtain ⟨fs', layout₂, himport, hsame⟩ :=
    checkpoint_unobservable .nil hexport runtimeFsInit none
  have hmkdir : ((FsCall.mkdir 7 (some pathA) 493).answer runtimeFsInit).map
      (fun r ↦ r.1.status) = .ok Status.ok := by decide +kernel
  obtain ⟨⟨a, fs₁⟩, hanswer, hstatus⟩ := map_eq_ok.mp hmkdir
  have htrace : FsRun runtimeFsInit [(.mkdir 7 (some pathA) 493, a)] fs₁ :=
    .call trivial trivial hanswer .nil
  have hlisting : ∀ r ∈ [(FsCall.mkdir 7 (some pathA) 493, a)], ∀ object entry,
      r.1 ≠ .readdir object entry := by simp
  obtain ⟨fs₂, hrun, -⟩ := (hsame _ hlisting fs₁.view).mpr ⟨fs₁, htrace, rfl⟩
  exact ⟨bytes, fs', layout₂, himport, a, fs₂, hrun, hstatus⟩

end TensorOS
