-- A completed backup can be restored exactly when no live change has come between the reads of one
-- of its files. The envelope gives back what was encrypted, and nothing else is accepted.
import MoaWorks.BackupArtifacts

namespace moaworks.backup_artifact

open Encoding (Bytes)

variable {root : Root} {path : RelPath} {name : String} {m : Member} {dump content : Bytes}
  {a : Archive} {entries : List (String × Bytes)}

/-- What is documented of the libraries. `sealed` holds the nonces, bodies and tags that were made
with the key; AES-GCM accepts no others. -/
structure Toolkit.Lawful (t : Toolkit) (key : Bytes) (Sealed : Bytes → Bytes → Bytes → Prop) :
    Prop where
  unzip_zip : ∀ entries, t.unzip (t.zip entries) = some entries
  unzip_empty : t.unzip [] = none
  loads_dumps : ∀ manifest, t.loads (t.dumps manifest) = some manifest
  encryptor_chunks : ∀ nonce aad chunks,
    t.encryptor key nonce aad chunks = t.encryptor key nonce aad [chunks.flatten]
  decryptor_chunks : ∀ nonce aad tag chunks,
    t.decryptor key nonce aad tag chunks = t.decryptor key nonce aad tag [chunks.flatten]
  length_body : ∀ nonce aad plain,
    (t.encryptor key nonce aad [plain]).1.length = plain.length
  length_tag : ∀ nonce aad plain, (t.encryptor key nonce aad [plain]).2.length = TAG_BYTES
  decryptor_encryptor : ∀ nonce aad plain, t.decryptor key nonce aad
    (t.encryptor key nonce aad [plain]).2 [(t.encryptor key nonce aad [plain]).1] = some plain
  authentic : ∀ nonce tag body plain,
    t.decryptor key nonce MAGIC tag [body] = some plain → Sealed nonce body tag

variable {t : Toolkit} {key : Bytes} {Sealed : Bytes → Bytes → Bytes → Prop} {live : Live}
  {turns : Nat}

/-! ## Envelopes -/

theorem length_envelope {nonce tag : Bytes} (body : Bytes) (hnonce : nonce.length = NONCE_BYTES)
    (htag : tag.length = TAG_BYTES) :
    (envelope nonce body tag).length = header_size + body.length + TAG_BYTES := by
  simp only [envelope, List.length_append, hnonce, htag, header_size]

/-- The cuts of `decrypt` give the parts of an envelope. -/
theorem cut_envelope {nonce tag : Bytes} (body : Bytes) (hnonce : nonce.length = NONCE_BYTES)
    (htag : tag.length = TAG_BYTES) :
    (envelope nonce body tag).take MAGIC.length = MAGIC ∧
      ((envelope nonce body tag).drop MAGIC.length).take NONCE_BYTES = nonce ∧
      ((envelope nonce body tag).drop header_size).take body.length = body ∧
      (envelope nonce body tag).drop ((envelope nonce body tag).length - TAG_BYTES) = tag := by
  have hheader : (MAGIC ++ nonce).length = header_size := by
    rw [List.length_append, hnonce, header_size]
  have hfront : (envelope nonce body tag).length - TAG_BYTES = (MAGIC ++ nonce ++ body).length := by
    rw [length_envelope body hnonce htag, List.length_append, hheader]
    omega
  refine ⟨?_, ?_, ?_, ?_⟩
  · rw [envelope, List.append_assoc, List.append_assoc, List.take_left]
  · rw [envelope, List.append_assoc, List.append_assoc, List.drop_left, ← hnonce, List.take_left]
  · rw [envelope, List.append_assoc, ← hheader, List.drop_left, List.take_left]
  · rw [hfront, envelope, List.drop_left]

/-- What `decrypt` asks AES-GCM for, when it is long enough and begins as an envelope. -/
theorem decrypt_ok {source plain : Bytes} (hlaw : t.Lawful key Sealed)
    (h : decrypt t key source = .ok plain) :
    ∃ nonce body tag, source = envelope nonce body tag ∧
      t.decryptor key nonce MAGIC tag [body] = some plain := by
  unfold decrypt at h
  obtain ⟨_, hlong, h⟩ := Raise.bind_ok.1 h
  obtain ⟨_, hmagic, h⟩ := Raise.bind_ok.1 h
  obtain ⟨chunks, hchunks, h⟩ := Raise.bind_ok.1 h
  have hlong := Raise.require_ok.1 hlong
  have hmagic := Raise.require_ok.1 hmagic
  have hread := Raise.found_ok.1 hchunks
  have hsize : source.length - header_size - TAG_BYTES ≤ (source.drop header_size).length := by
    rw [List.length_drop]
    omega
  obtain ⟨chunks', hread', hflat⟩ := Chunks.readExactly_enough
    (by decide : 0 < chunkSize) (source.length - header_size - TAG_BYTES) _ _ (le_refl _) hsize
  obtain rfl : chunks' = chunks := Option.some.inj (hread'.symm.trans hread)
  have hplain := Raise.found_ok.1 h
  rw [hlaw.decryptor_chunks, hflat] at hplain
  refine ⟨_, _, _, ?_, hplain⟩
  -- the four cuts lie side by side
  have hnonce : source.drop MAGIC.length =
      (source.drop MAGIC.length).take NONCE_BYTES ++ source.drop header_size := by
    conv_lhs => rw [← List.take_append_drop NONCE_BYTES (source.drop MAGIC.length)]
    rw [List.drop_drop, header_size]
  have htag : source.drop header_size =
      (source.drop header_size).take (source.length - header_size - TAG_BYTES) ++
        source.drop (source.length - TAG_BYTES) := by
    conv_lhs => rw [← List.take_append_drop (source.length - header_size - TAG_BYTES)
      (source.drop header_size)]
    rw [List.drop_drop]
    congr 2
    omega
  calc source = source.take MAGIC.length ++ source.drop MAGIC.length :=
        (List.take_append_drop _ _).symm
    _ = MAGIC ++ ((source.drop MAGIC.length).take NONCE_BYTES ++
          ((source.drop header_size).take (source.length - header_size - TAG_BYTES) ++
            source.drop (source.length - TAG_BYTES))) := by
        rw [hmagic, ← htag, ← hnonce]
    _ = _ := by
        simp only [envelope, List.append_assoc]

theorem decrypt_envelope {nonce body tag : Bytes} (hlaw : t.Lawful key Sealed)
    (hnonce : nonce.length = NONCE_BYTES) (htag : tag.length = TAG_BYTES) (hbody : body ≠ []) :
    decrypt t key (envelope nonce body tag) =
      Raise.found (t.decryptor key nonce MAGIC tag [body]) "InvalidTag" := by
  obtain ⟨hmagic, hcut, hmiddle, hend⟩ := cut_envelope body hnonce htag
  have hlen := length_envelope body hnonce htag
  have hpos : 0 < body.length := List.length_pos_iff.2 hbody
  have hsize : (envelope nonce body tag).length - header_size - TAG_BYTES = body.length := by
    omega
  obtain ⟨chunks, hread, hflat⟩ := Chunks.readExactly_enough
    (by decide : 0 < chunkSize) body.length body.length ((envelope nonce body tag).drop header_size) (le_refl _) (by
      rw [List.length_drop]
      omega)
  rw [hmiddle] at hflat
  unfold decrypt
  dsimp only
  rw [hcut, hend, hsize, hread]
  have hlong : ¬ (envelope nonce body tag).length ≤ header_size + TAG_BYTES := by omega
  simp only [Raise.require, if_pos hlong, if_pos hmagic, Raise.found]
  have hchunks : t.decryptor key nonce MAGIC tag chunks = t.decryptor key nonce MAGIC tag [body] := by
    rw [hlaw.decryptor_chunks nonce MAGIC tag chunks, hflat]
  rw [← hchunks]
  rfl

/-- `encrypt` makes an envelope of one call of AES-GCM. -/
theorem encrypt_eq (hlaw : t.Lawful key Sealed) (nonce : Nonce) (source : Bytes) :
    encrypt t key nonce source = envelope nonce.bytes
      (t.encryptor key nonce.bytes MAGIC [source]).1
      (t.encryptor key nonce.bytes MAGIC [source]).2 := by
  obtain ⟨chunks, hread, hflat⟩ : ∃ chunks,
      Chunks.readAll (fun _ => source) chunkSize (source.length + 1) 0 0 = some chunks ∧
        chunks.flatten = source :=
    Chunks.readAll_still (by decide) (fun _ => rfl) _ 0 0 (Nat.lt_succ_self _)
  unfold encrypt
  have hchunks : t.encryptor key nonce.bytes MAGIC chunks =
      t.encryptor key nonce.bytes MAGIC [source] := by
    rw [hlaw.encryptor_chunks nonce.bytes MAGIC chunks, hflat]
  rw [← hchunks, hread]
  rfl

theorem decrypt_encrypt (hlaw : t.Lawful key Sealed) (nonce : Nonce) {source : Bytes}
    (hsource : source ≠ []) : decrypt t key (encrypt t key nonce source) = .ok source := by
  have hbody : (t.encryptor key nonce.bytes MAGIC [source]).1 ≠ [] := by
    rw [← List.length_pos_iff, hlaw.length_body]
    exact List.length_pos_iff.2 hsource
  rw [encrypt_eq hlaw, decrypt_envelope hlaw nonce.length_bytes (hlaw.length_tag ..) hbody,
    hlaw.decryptor_encryptor]
  rfl

/-- The artifact is one that was written with the key. -/
def Written (Sealed : Bytes → Bytes → Bytes → Prop) (artifact : Bytes) : Prop :=
  ∃ nonce body tag, Sealed nonce body tag ∧ artifact = envelope nonce body tag

theorem decrypt_written (hlaw : t.Lawful key Sealed) (artifact : Bytes) :
    (∃ e, decrypt t key artifact = .error e) ∨ Written Sealed artifact := by
  cases h : decrypt t key artifact with
  | error e => exact .inl ⟨e, rfl⟩
  | ok plain =>
    obtain ⟨nonce, body, tag, rfl, hplain⟩ := decrypt_ok hlaw h
    exact .inr ⟨nonce, body, tag, hlaw.authentic _ _ _ _ hplain, rfl⟩

/-! ## Names -/

/-- Fields joined by slashes. -/
def joined (fields : List String) : String := (String.ofList ['/']).intercalate fields

def Root.fields (root : Root) (path : RelPath) : List String := root.folder :: path.parts

theorem free_fields (root : Root) (path : RelPath) :
    ∀ f ∈ root.fields path, Encoding.Free '/' f := by
  intro f hf
  rcases List.mem_cons.1 hf with rfl | hf
  · cases root <;> decide
  · exact path.free f hf

theorem named_fields (root : Root) (path : RelPath) : "" ∉ root.fields path := by
  intro hmem
  rcases List.mem_cons.1 hmem with hfolder | hpart
  · cases root <;> exact absurd hfolder (by decide)
  · exact path.named _ hpart rfl

/-- A name tells the fields that it was joined of. -/
theorem fields_of_archiveName {fields : List String} (hfree : ∀ f ∈ fields, Encoding.Free '/' f)
    (hsome : fields ≠ []) (h : archiveName root path = joined fields) : root.fields path = fields :=
  Encoding.join_injective (free_fields root path) hfree (List.cons_ne_nil _ _) hsome h

theorem archiveName_injective {root' : Root} {path' : RelPath}
    (h : archiveName root path = archiveName root' path') : root = root' ∧ path = path' := by
  have hfields := fields_of_archiveName (free_fields root' path') (List.cons_ne_nil _ _) h
  obtain ⟨hfolder, hparts⟩ := List.cons.inj hfields
  obtain ⟨parts, _, _, _⟩ := path
  obtain ⟨parts', _, _, _⟩ := path'
  obtain rfl : parts = parts' := hparts
  refine ⟨?_, rfl⟩
  cases root <;> cases root' <;> first | rfl | exact absurd hfolder (by decide)

theorem archiveName_ne_database (root : Root) (path : RelPath) :
    archiveName root path ≠ "database/database.dump" := by
  intro h
  have hfields : root.fields path = ["database", "database.dump"] :=
    fields_of_archiveName (by decide) (by decide) h
  cases root <;> exact absurd (List.cons.inj hfields).1 (by decide)

theorem archiveName_ne_manifest (root : Root) (path : RelPath) :
    archiveName root path ≠ "manifest.json" := by
  intro h
  have hfields : root.fields path = ["manifest.json"] :=
    fields_of_archiveName (by decide) (by decide) h
  exact path.some_part (List.cons.inj hfields).2

theorem intercalate_snoc (separator : List Char) : ∀ (fields : List (List Char)), fields ≠ [] →
    separator.intercalate (fields ++ [[]]) = separator.intercalate fields ++ separator
  | [], hsome => absurd rfl hsome
  | [f], _ => by simp [List.intercalate]
  | f :: g :: fields, _ => by
    have ih := intercalate_snoc separator (g :: fields) (List.cons_ne_nil _ _)
    simp only [List.cons_append, List.intercalate_cons_cons] at ih ⊢
    rw [ih]
    simp only [List.append_assoc]

/-- The name of a directory is the name of no file. -/
theorem archiveName_ne_directory (root root' : Root) (path path' : RelPath) :
    archiveName root path ≠ archiveName root' path' ++ "/" := by
  intro h
  have hjoin : archiveName root' path' ++ "/" = joined (root'.fields path' ++ [""]) := by
    rw [← String.toList_inj, String.toList_append, joined, String.toList_intercalate,
      List.map_append, archiveName, String.toList_intercalate]
    exact (intercalate_snoc _ _ (by simp)).symm
  rw [hjoin] at h
  have hfields := fields_of_archiveName (by
    intro f hf
    rcases List.mem_append.1 hf with hf | hf
    · exact free_fields root' path' f hf
    · rw [List.mem_singleton.1 hf]
      decide) (by simp) h
  exact named_fields root path (hfields ▸ by simp)

/-! ## Members -/

/-- A path that the walk over a root has found. -/
def Listed (live : Live) (root : Root) (path : RelPath) : Prop :=
  ∃ listing, (live (.walk root)).listing root = some listing ∧ path ∈ listing.found

/-- The member of a listed file, from the bytes that its digest was made of. -/
def fileMember (t : Toolkit) (root : Root) (path : RelPath) (content : Bytes) : Member :=
  ⟨.live root path, archiveName root path, t.sha256 content, content⟩

def dumpMember (t : Toolkit) (dump : Bytes) : Member :=
  ⟨.dump, "database/database.dump", t.sha256 dump, dump⟩

theorem append_member_ok {source : Source} {read : Except String Bytes}
    (h : _append_member t source name read = .ok m) :
    isArchiveName name = true ∧ ∃ content, read = .ok content ∧
      m = ⟨source, name, t.sha256 content, content⟩ := by
  unfold _append_member at h
  obtain ⟨_, hname, h⟩ := Raise.bind_ok.1 h
  obtain ⟨content, hcontent, h⟩ := Raise.bind_ok.1 h
  exact ⟨Raise.require_ok.1 hname, content, hcontent, (Except.ok.inj h).symm⟩

theorem appendFile_ok (h : appendFile t live turns root path = .ok m) :
    isArchiveName (archiveName root path) = true ∧ ∃ content,
      readFile live turns .digest root path = .ok content ∧ m = fileMember t root path content := by
  unfold appendFile at h
  obtain ⟨_, _, h⟩ := Raise.bind_ok.1 h
  exact append_member_ok h

/-- A member of a tree, and what was read for it. -/
def FromTree (t : Toolkit) (live : Live) (turns : Nat) (root : Root) (m : Member) : Prop :=
  ∃ path content, Listed live root path ∧ isArchiveName (archiveName root path) = true ∧
    readFile live turns .digest root path = .ok content ∧ m = fileMember t root path content

theorem append_tree_members {ms : List Member} (h : _append_tree t live turns root = .ok ms)
    (hm : m ∈ ms) : FromTree t live turns root m := by
  unfold _append_tree at h
  split at h
  · cases h
    cases hm
  · rename_i listing hlisting
    obtain ⟨path, hpath, hturn⟩ := Raise.exists_of_mapM_ok h hm
    obtain ⟨hname, content, hread, rfl⟩ := appendFile_ok hturn
    exact ⟨path, content, ⟨listing, hlisting, (List.mem_insertionSort _).1 hpath⟩, hname, hread, rfl⟩

theorem append_tree_complete {ms : List Member} (h : _append_tree t live turns root = .ok ms)
    (hpath : Listed live root path) :
    ∃ content, readFile live turns .digest root path = .ok content ∧
      fileMember t root path content ∈ ms := by
  obtain ⟨listing, hlisting, hfound⟩ := hpath
  unfold _append_tree at h
  rw [hlisting] at h
  obtain ⟨m, hm, hturn⟩ := Raise.mem_of_mapM_ok h ((List.mem_insertionSort _).2 hfound)
  obtain ⟨_, content, hread, rfl⟩ := appendFile_ok hturn
  exact ⟨content, hread, hm⟩

/-- No two members of a tree have the same name. -/
theorem append_tree_nodup {ms : List Member} (h : _append_tree t live turns root = .ok ms) :
    (ms.map Member.archive_name).Nodup := by
  unfold _append_tree at h
  split at h
  · cases h
    exact List.nodup_nil
  · rename_i listing hlisting
    have hnames : listing.sorted.map (archiveName root) = ms.map Member.archive_name := by
      refine Raise.map_of_mapM_ok h (fun path _ m hm => ?_)
      obtain ⟨_, content, _, rfl⟩ := appendFile_ok hm
      rfl
    rw [← hnames]
    refine List.Nodup.map (fun path path' heq => (archiveName_injective heq).2) ?_
    exact (List.perm_insertionSort _ _).nodup_iff.2 listing.nodup

/-- What is known of an archive that was made. -/
structure Made (t : Toolkit) (live : Live) (turns : Nat) (dump : Bytes) (a : Archive) : Prop where
  member : ∀ m ∈ a.members, m = dumpMember t dump ∨ ∃ root, FromTree t live turns root m
  dumped : dumpMember t dump ∈ a.members
  complete : ∀ root path, Listed live root path → ∃ content,
    readFile live turns .digest root path = .ok content ∧ fileMember t root path content ∈ a.members
  nodup : (a.members.map Member.archive_name).Nodup
  files : a.members.mapM (manifestEntry live dump) = .ok a.manifest.files
  entries : a.members.mapM (writeMember live turns dump) = .ok a.entries
  bytes : a.bytes = t.zip (a.entries ++ [("manifest.json", t.dumps a.manifest)])

theorem create_archive_ok {backupId companyId createdAt : String}
    (h : create_archive t live turns dump backupId companyId createdAt = .ok a) :
    Made t live turns dump a := by
  unfold create_archive at h
  obtain ⟨database, hdatabase, h⟩ := Raise.bind_ok.1 h
  obtain ⟨storage, hstorage, h⟩ := Raise.bind_ok.1 h
  obtain ⟨runtime, hruntime, h⟩ := Raise.bind_ok.1 h
  obtain ⟨files, hfiles, h⟩ := Raise.bind_ok.1 h
  obtain ⟨entries, hentries, h⟩ := Raise.bind_ok.1 h
  cases h
  obtain ⟨_, content, hcontent, rfl⟩ := append_member_ok hdatabase
  cases hcontent
  refine ⟨?_, List.mem_cons_self, ?_, ?_, hfiles, hentries, rfl⟩
  · intro m hm
    rcases List.mem_cons.1 hm with rfl | hm
    · exact .inl rfl
    · rcases List.mem_append.1 hm with hm | hm
      · exact .inr ⟨.storage, append_tree_members hstorage hm⟩
      · exact .inr ⟨.runtime, append_tree_members hruntime hm⟩
  · intro root path hpath
    cases root with
    | storage =>
      obtain ⟨content, hread, hm⟩ := append_tree_complete hstorage hpath
      exact ⟨content, hread, List.mem_cons_of_mem _ (List.mem_append_left _ hm)⟩
    | runtime =>
      obtain ⟨content, hread, hm⟩ := append_tree_complete hruntime hpath
      exact ⟨content, hread, List.mem_cons_of_mem _ (List.mem_append_right _ hm)⟩
  · rw [List.map_cons, List.map_append, List.nodup_cons, List.mem_append, List.nodup_append']
    refine ⟨?_, append_tree_nodup hstorage, append_tree_nodup hruntime, ?_⟩
    · rintro (hmem | hmem)
      · obtain ⟨m, hm, hname⟩ := List.mem_map.1 hmem
        obtain ⟨path, content, _, _, _, rfl⟩ := append_tree_members hstorage hm
        exact archiveName_ne_database _ _ hname
      · obtain ⟨m, hm, hname⟩ := List.mem_map.1 hmem
        obtain ⟨path, content, _, _, _, rfl⟩ := append_tree_members hruntime hm
        exact archiveName_ne_database _ _ hname
    · intro name hname hname'
      obtain ⟨m, hm, rfl⟩ := List.mem_map.1 hname
      obtain ⟨m', hm', heq⟩ := List.mem_map.1 hname'
      obtain ⟨path, content, _, _, _, rfl⟩ := append_tree_members hstorage hm
      obtain ⟨path', content', _, _, _, rfl⟩ := append_tree_members hruntime hm'
      exact absurd (archiveName_injective heq).1 (by decide)

theorem Made.unique (h : Made t live turns dump a) {m' : Member} (hm : m ∈ a.members)
    (hm' : m' ∈ a.members) (hname : m.archive_name = m'.archive_name) : m = m' :=
  List.inj_on_of_nodup_map h.nodup hm hm' hname

/-! ## Entries -/

theorem mem_of_readEntry (h : readEntry entries name = some content) :
    (name, content) ∈ entries := by
  obtain ⟨l, l', hsplit, _⟩ := List.lookup_eq_some_iff.1 h
  rw [← List.mem_reverse, hsplit]
  exact List.mem_append_right _ List.mem_cons_self

theorem readEntry_of_mem (hnodup : (entries.map Prod.fst).Nodup) (h : (name, content) ∈ entries) :
    readEntry entries name = some content := by
  obtain ⟨l, l', hsplit⟩ := List.append_of_mem (List.mem_reverse.2 h)
  refine List.lookup_eq_some_iff.2 ⟨l, l', hsplit, fun p hp => ?_⟩
  rw [← List.nodup_reverse, ← List.map_reverse, hsplit, List.map_append, List.nodup_append'] at hnodup
  have hne : p.1 ≠ name := fun heq =>
    hnodup.2.2 (List.mem_map_of_mem hp) (heq ▸ List.mem_cons_self)
  exact bne_iff_ne.2 hne.symm

/-- An entry of another name does not hide one. -/
theorem readEntry_snoc {other : String} (hne : name ≠ other) :
    readEntry (entries ++ [(other, content)]) name = readEntry entries name := by
  simp only [readEntry, List.reverse_append, List.reverse_cons, List.reverse_nil, List.nil_append,
    List.singleton_append, List.lookup_cons, beq_eq_false_iff_ne.2 hne]

theorem readEntry_last (name : String) (content : Bytes) :
    readEntry (entries ++ [(name, content)]) name = some content := by
  simp only [readEntry, List.reverse_append, List.reverse_cons, List.reverse_nil, List.nil_append,
    List.singleton_append, List.lookup_cons, beq_self_eq_true]

/-! ## Files that no change has come between -/

/-- The read for the archive gets the bytes that the read for the digest got, and their number is
the size of the file in between. The path has not become one of a directory. -/
structure Steady (live : Live) (turns : Nat) (root : Root) (path : RelPath) : Prop where
  content : readFile live turns .write root path = readFile live turns .digest root path
  file : ∀ size, (live (.inspect root path)).node root path ≠ some (.directory size)
  size : ∀ content, readFile live turns .digest root path = .ok content →
    statSize live [] (.live root path) = .ok content.length

/-- The condition: all files that are backed up are so. -/
def AllSteady (live : Live) (turns : Nat) : Prop :=
  ∀ root path, Listed live root path → Steady live turns root path

theorem writeMember_ok {e : String × Bytes} (h : writeMember live turns dump m = .ok e) :
    (m.source = .dump ∧ e = (m.archive_name, dump)) ∨ ∃ root path, m.source = .live root path ∧
      ((∃ size, (live (.inspect root path)).node root path = some (.directory size) ∧
        e = (m.archive_name ++ "/", [])) ∨
      ((∀ size, (live (.inspect root path)).node root path ≠ some (.directory size)) ∧
        ∃ content, readFile live turns .write root path = .ok content ∧
          e = (m.archive_name, content))) := by
  unfold writeMember at h
  split at h
  · rename_i hsource
    exact .inl ⟨hsource, (Except.ok.inj h).symm⟩
  · rename_i root path hsource
    refine .inr ⟨root, path, hsource, ?_⟩
    split at h
    · cases h
    · rename_i size hnode
      exact .inl ⟨size, hnode, (Except.ok.inj h).symm⟩
    · rename_i inode hnode
      obtain ⟨content, hread, h⟩ := Raise.bind_ok.1 h
      refine .inr ⟨fun size hdirectory => ?_, content, hread, (Except.ok.inj h).symm⟩
      rw [hnode] at hdirectory
      cases hdirectory

theorem manifestEntry_ok {item : Entry} (h : manifestEntry live dump m = .ok item) :
    item.path = m.archive_name ∧ item.sha256 = m.digest ∧
      statSize live dump m.source = .ok item.sizeBytes := by
  unfold manifestEntry at h
  obtain ⟨size, hsize, h⟩ := Raise.bind_ok.1 h
  cases h
  exact ⟨rfl, rfl, hsize⟩

/-- The archive holds the member as it was when its digest was made. -/
structure Kept (a : Archive) (item : Entry) (m : Member) : Prop where
  path : item.path = m.archive_name
  sha256 : item.sha256 = m.digest
  size : item.sizeBytes = m.digested.length
  content : readEntry a.entries item.path = some m.digested

/-- Every line of the manifest tells of one content: that of the digest, which is the one in the
archive. -/
def OneContent (a : Archive) : Prop :=
  ∀ item ∈ a.manifest.files, ∃ m ∈ a.members, Kept a item m

theorem Made.of_live (h : Made t live turns dump a) (hm : m ∈ a.members)
    (hsource : m.source = .live root path) : ∃ content, m = fileMember t root path content := by
  rcases h.member m hm with rfl | ⟨root', path', content, _, _, _, rfl⟩
  · cases hsource
  · cases hsource
    exact ⟨content, rfl⟩

theorem Made.of_dump (h : Made t live turns dump a) (hm : m ∈ a.members)
    (hsource : m.source = .dump) : m = dumpMember t dump := by
  rcases h.member m hm with rfl | ⟨root', path', content, _, _, _, rfl⟩
  · rfl
  · cases hsource

/-- An entry under the name of a file was written from that file. -/
theorem Made.written (h : Made t live turns dump a)
    (hentry : readEntry a.entries (archiveName root path) = some content) :
    readFile live turns .write root path = .ok content ∧
      ∀ size, (live (.inspect root path)).node root path ≠ some (.directory size) := by
  obtain ⟨m, hm, hwrite⟩ := Raise.exists_of_mapM_ok h.entries (mem_of_readEntry hentry)
  rcases writeMember_ok hwrite with ⟨hsource, heq⟩ |
    ⟨root', path', hsource, ⟨size, _, heq⟩ | ⟨hfile, content', hread, heq⟩⟩
  · obtain rfl := h.of_dump hm hsource
    exact absurd (Prod.mk.inj heq).1 (archiveName_ne_database _ _)
  · obtain ⟨_, rfl⟩ := h.of_live hm hsource
    exact absurd (Prod.mk.inj heq).1 (archiveName_ne_directory _ _ _ _)
  · obtain ⟨_, rfl⟩ := h.of_live hm hsource
    obtain ⟨hname, rfl⟩ := Prod.mk.inj heq
    obtain ⟨rfl, rfl⟩ := archiveName_injective hname
    exact ⟨hread, hfile⟩

theorem steady_of_oneContent (h : Made t live turns dump a) (hone : OneContent a) :
    AllSteady live turns := by
  intro root path hpath
  obtain ⟨content, hdigest, hm⟩ := h.complete root path hpath
  obtain ⟨item, hitem, hline⟩ := Raise.mem_of_mapM_ok h.files hm
  obtain ⟨hname, _, hstat⟩ := manifestEntry_ok hline
  obtain ⟨m, hm', hkept⟩ := hone item hitem
  obtain rfl : m = fileMember t root path content :=
    h.unique hm' hm (hkept.path.symm.trans hname)
  have hentry := hkept.content
  rw [hname] at hentry
  obtain ⟨hwrite, hfile⟩ := h.written hentry
  refine ⟨hwrite.trans hdigest.symm, hfile, fun content' hdigest' => ?_⟩
  obtain rfl : content' = content := Except.ok.inj (hdigest'.symm.trans hdigest)
  exact hstat.trans (congrArg Except.ok hkept.size)

/-- A member that no change has come between is written as it was when its digest was made. -/
theorem Made.write (h : Made t live turns dump a) (hsteady : AllSteady live turns)
    (hm : m ∈ a.members) {e : String × Bytes} (hwrite : writeMember live turns dump m = .ok e) :
    e = (m.archive_name, m.digested) := by
  rcases h.member m hm with rfl | ⟨root, path, content, hpath, _, hdigest, rfl⟩
  · exact (Except.ok.inj hwrite).symm
  · have hs := hsteady root path hpath
    rcases writeMember_ok hwrite with ⟨hsource, _⟩ |
      ⟨root', path', hsource, ⟨size, hdirectory, _⟩ | ⟨_, content', hread, heq⟩⟩
    · cases hsource
    · cases hsource
      exact absurd hdirectory (hs.file size)
    · cases hsource
      obtain rfl : content' = content :=
        Except.ok.inj (hread.symm.trans (hs.content.trans hdigest))
      exact heq

theorem oneContent_of_steady (h : Made t live turns dump a) (hsteady : AllSteady live turns) :
    OneContent a := by
  intro item hitem
  obtain ⟨m, hm, hline⟩ := Raise.exists_of_mapM_ok h.files hitem
  obtain ⟨hname, hdigest, hstat⟩ := manifestEntry_ok hline
  refine ⟨m, hm, hname, hdigest, ?_, ?_⟩
  · rcases h.member m hm with rfl | ⟨root, path, content, hpath, _, hread, rfl⟩
    · exact (Except.ok.inj hstat).symm
    · exact Except.ok.inj (hstat.symm.trans ((hsteady root path hpath).size content hread))
  · obtain ⟨e, he, hwrite⟩ := Raise.mem_of_mapM_ok h.entries hm
    obtain rfl := h.write hsteady hm hwrite
    rw [hname]
    refine readEntry_of_mem ?_ he
    have hnames : a.members.map Member.archive_name = a.entries.map Prod.fst :=
      Raise.map_of_mapM_ok h.entries (fun m' hm' e' hwrite' => by
        rw [h.write hsteady hm' hwrite'])
    rw [← hnames]
    exact h.nodup

/-! ## Verification -/

theorem isArchiveName_database : isArchiveName "database/database.dump" = true := by decide

theorem Made.named (h : Made t live turns dump a) (hm : m ∈ a.members) :
    isArchiveName m.archive_name = true ∧ m.archive_name ≠ "manifest.json" ∧
      m.digest = t.sha256 m.digested := by
  rcases h.member m hm with rfl | ⟨root, path, content, _, hname, _, rfl⟩
  · exact ⟨isArchiveName_database, by simp [dumpMember], rfl⟩
  · exact ⟨hname, archiveName_ne_manifest root path, rfl⟩

theorem verifies_of_oneContent (hlaw : t.Lawful key Sealed) (h : Made t live turns dump a)
    (hone : OneContent a) : verify_archive t a.bytes = .ok ⟨true, [], a.manifest.files.length⟩ := by
  have hturn : ∀ item ∈ a.manifest.files,
      verifyEntry t (a.entries ++ [("manifest.json", t.dumps a.manifest)]) item = .ok [] := by
    intro item hitem
    obtain ⟨m, hm, hkept⟩ := hone item hitem
    obtain ⟨hname, hmanifest, hdigest⟩ := h.named hm
    rw [← hkept.path] at hname hmanifest
    unfold verifyEntry
    rw [if_pos hname, readEntry_snoc hmanifest, hkept.content]
    have hsame : ¬ (t.sha256 m.digested ≠ item.sha256 ∨ m.digested.length ≠ item.sizeBytes) := by
      rw [hkept.sha256, hkept.size, hdigest]
      simp
    simp only [if_neg hsame]
  have hflat : (a.manifest.files.map (fun _ => ([] : List String))).flatten = [] := by simp
  unfold verify_archive
  rw [h.bytes, hlaw.unzip_zip]
  refine Raise.bind_ok.2 ⟨_, rfl, Raise.bind_ok.2 ⟨t.dumps a.manifest, ?_, Raise.bind_ok.2
    ⟨a.manifest, ?_, Raise.bind_ok.2 ⟨_, Raise.mapM_same hturn, ?_⟩⟩⟩⟩
  · rw [readEntry_last]
    rfl
  · rw [hlaw.loads_dumps]
    rfl
  · rw [hflat]
    rfl

/-! ## Completed backups -/

theorem run_backup_ok {nonce : Nonce} {backupId companyId createdAt : String} {r : Completed}
    (h : _run_backup t live turns key nonce dump backupId companyId createdAt = .ok r) :
    Made t live turns dump r.archive ∧ r.artifact = encrypt t key nonce r.archive.bytes := by
  unfold _run_backup at h
  obtain ⟨_, _, h⟩ := Raise.bind_ok.1 h
  obtain ⟨archive, harchive, h⟩ := Raise.bind_ok.1 h
  cases h
  exact ⟨create_archive_ok harchive, rfl⟩

/-- What a completed backup is for: its artifact gives the archive back, the archive verifies, each
line of its manifest tells of one content, and no other artifact is taken for it, unless it was
written with the same key. -/
structure Restorable (t : Toolkit) (key : Bytes) (Sealed : Bytes → Bytes → Bytes → Prop)
    (r : Completed) : Prop where
  decrypts : decrypt t key r.artifact = .ok r.archive.bytes
  verifies : ∃ count, verify_archive t r.archive.bytes = .ok ⟨true, [], count⟩
  one_content : OneContent r.archive
  guarded : ∀ artifact ≠ r.artifact,
    (∃ e, decrypt t key artifact = .error e) ∨ Written Sealed artifact

/-- A completed backup can be restored if and only if no live change came between the reads of one
of its files. -/
theorem completed_is_restorable_iff (hlaw : t.Lawful key Sealed) {nonce : Nonce} {dump : Bytes}
    {backupId companyId createdAt : String} {r : Completed}
    (h : _run_backup t live turns key nonce dump backupId companyId createdAt = .ok r) :
    Restorable t key Sealed r ↔ AllSteady live turns := by
  obtain ⟨hmade, hartifact⟩ := run_backup_ok h
  refine ⟨fun hr => steady_of_oneContent hmade hr.one_content, fun hsteady => ?_⟩
  have hone := oneContent_of_steady hmade hsteady
  have hbytes : r.archive.bytes ≠ [] := by
    intro hempty
    have hzip := hlaw.unzip_zip (r.archive.entries ++
      [("manifest.json", t.dumps r.archive.manifest)])
    rw [← hmade.bytes, hempty, hlaw.unzip_empty] at hzip
    cases hzip
  refine ⟨?_, ⟨_, verifies_of_oneContent hlaw hmade hone⟩, hone,
    fun artifact _ => decrypt_written hlaw artifact⟩
  rw [hartifact]
  exact decrypt_encrypt hlaw nonce hbytes

/-! ## A note that is rewritten under the backup -/

/-- A value as a number, and the number as that many zeros. -/
def written {α : Type} [Encodable α] (a : α) : Bytes := List.replicate (Encodable.encode a + 1) 0

def readBack {α : Type} [Encodable α] (bytes : Bytes) : Option α :=
  if bytes = [] then none else Encodable.decode (bytes.length - 1)

theorem readBack_written {α : Type} [Encodable α] (a : α) : readBack (written a) = some a := by
  have hsome : written a ≠ [] := by simp [written]
  rw [readBack, if_neg hsome, written, List.length_replicate, Nat.add_sub_cancel, Encodable.encodek]

instance encodableChar : Encodable Char :=
  Encodable.ofLeftInverse Char.toNat Char.ofNat Char.ofNat_toNat

instance encodableString : Encodable String :=
  Encodable.ofLeftInverse String.toList String.ofList (fun _ => String.ofList_toList)

instance encodableUInt8 : Encodable UInt8 :=
  Encodable.ofLeftInverse UInt8.toNat UInt8.ofNat (fun _ => UInt8.ofNat_toNat)

instance : Encodable Entry :=
  Encodable.ofLeftInverse (fun e => (e.path, e.sha256, e.sizeBytes))
    (fun e => ⟨e.1, e.2.1, e.2.2⟩) (fun _ => rfl)

instance : Encodable Manifest :=
  Encodable.ofLeftInverse (fun m => (m.backupId, m.companyId, m.createdAt, m.files))
    (fun m => ⟨m.1, m.2.1, m.2.2.1, m.2.2.2⟩) (fun _ => rfl)

/-- Sixteen times the sum of the bytes. -/
def checksum (nonce body : Bytes) : Bytes := List.replicate TAG_BYTES (nonce ++ body).sum

def sampleToolkit : Toolkit where
  sha256 := Encoding.hex
  zip := written
  unzip := readBack
  dumps := written
  loads := readBack
  encryptor := fun _ nonce _ chunks => (chunks.flatten, checksum nonce chunks.flatten)
  decryptor := fun _ nonce _ tag chunks =>
    if tag = checksum nonce chunks.flatten then some chunks.flatten else none

theorem sampleToolkit_lawful (key : Bytes) :
    sampleToolkit.Lawful key (fun nonce body tag => tag = checksum nonce body) where
  unzip_zip := readBack_written
  unzip_empty := rfl
  loads_dumps := readBack_written
  encryptor_chunks := fun nonce aad chunks => by
    simp only [sampleToolkit, List.flatten_singleton]
  decryptor_chunks := fun nonce aad tag chunks => by
    simp only [sampleToolkit, List.flatten_singleton]
  length_body := fun nonce aad plain => by
    simp only [sampleToolkit, List.flatten_singleton]
  length_tag := fun nonce aad plain => by
    simp only [sampleToolkit, checksum, List.length_replicate]
  decryptor_encryptor := fun nonce aad plain => by
    simp only [sampleToolkit, List.flatten_singleton, if_true]
  authentic := fun nonce tag body plain h => by
    simp only [sampleToolkit, List.flatten_singleton] at h
    split_ifs at h with htag
    exact htag

def note : RelPath := ⟨["note"], by decide, by decide, by decide⟩

/-- One file in the storage tree, and no runtime tree. -/
def noteTree (content : Bytes) : FileSystem where
  listing := fun
    | .storage => some ⟨[note], List.nodup_singleton _⟩
    | .runtime => none
  node := fun root path => if root = .storage ∧ path = note then some (.file 1) else none
  inside := fun _ _ => true
  contents := fun _ => content

/-- Nothing changes the note. -/
def quietTrees : Live := fun _ => noteTree [1, 2]

/-- The note is rewritten before it is put into the archive. -/
def rewrittenTrees : Live
  | .opening .write _ _ | .chunk .write _ _ _ => noteTree [3, 4]
  | _ => noteTree [1, 2]

def twelveZeros : Nonce := ⟨List.replicate 12 0, rfl⟩

def backupOf (live : Live) : Except String Completed :=
  _run_backup sampleToolkit live 8 [] twelveZeros [7] "b1" "c1" "2024-01-01T00:00:00+00:00"

/-- The lines of the manifest: the dump, and the note as its digest was made of it. -/
def noteFiles : List Entry :=
  [⟨"database/database.dump", "07", 1⟩, ⟨"storage/note", "0102", 2⟩]

/-- A backup is completed whose archive does not verify: it holds the note as it was later. -/
theorem a_rewritten_note_is_not_restorable : ∃ r, backupOf rewrittenTrees = .ok r ∧
    verify_archive sampleToolkit r.archive.bytes = .ok ⟨false, ["storage/note"], 2⟩ ∧
      ¬ Restorable sampleToolkit [] (fun nonce body tag => tag = checksum nonce body) r := by
  have hentries : (backupOf rewrittenTrees).toOption.map (fun r => r.archive.entries) =
      some [("database/database.dump", [7]), ("storage/note", [3, 4])] := by decide +kernel
  have hfiles : (backupOf rewrittenTrees).toOption.map (fun r => r.archive.manifest.files) =
      some noteFiles := by decide +kernel
  obtain ⟨r, hr, hentries⟩ := Option.map_eq_some_iff.1 hentries
  rw [hr, Option.map_some, Option.some.injEq] at hfiles
  have hrun := Raise.ok_of_toOption hr
  have hmade := (run_backup_ok hrun).1
  have hverify : verify_archive sampleToolkit r.archive.bytes =
      .ok ⟨false, ["storage/note"], 2⟩ := by
    unfold verify_archive
    rw [hmade.bytes, (sampleToolkit_lawful []).unzip_zip]
    refine Raise.bind_ok.2 ⟨_, rfl, Raise.bind_ok.2
      ⟨sampleToolkit.dumps r.archive.manifest, ?_, Raise.bind_ok.2 ⟨r.archive.manifest, ?_, ?_⟩⟩⟩
    · rw [readEntry_last]
      rfl
    · rw [(sampleToolkit_lawful []).loads_dumps]
      rfl
    · rw [hfiles, hentries]
      rfl
  refine ⟨r, hrun, hverify, fun h => ?_⟩
  obtain ⟨count, hvalid⟩ := h.verifies
  rw [hverify] at hvalid
  cases hvalid

theorem allSteady_quiet : AllSteady quietTrees 8 := by
  rintro root path ⟨listing, hlisting, hpath⟩
  cases root with
  | runtime => cases hlisting
  | storage =>
    cases hlisting
    obtain rfl := List.mem_singleton.1 hpath
    have hread : readFile quietTrees 8 .digest .storage note = .ok [1, 2] := by rfl
    refine ⟨by rfl, fun size hnode => (by cases hnode), fun content hcontent => ?_⟩
    obtain rfl := Except.ok.inj (hread.symm.trans hcontent)
    rfl

theorem the_quiet_note_is_restorable : ∃ r, backupOf quietTrees = .ok r ∧
    AllSteady quietTrees 8 ∧
      (Restorable sampleToolkit [] (fun nonce body tag => tag = checksum nonce body) r ↔
        AllSteady quietTrees 8) := by
  have hfiles : (backupOf quietTrees).toOption.map (fun r => r.archive.manifest.files) =
      some noteFiles := by decide +kernel
  obtain ⟨r, hr, _⟩ := Option.map_eq_some_iff.1 hfiles
  have hrun := Raise.ok_of_toOption hr
  exact ⟨r, hrun, allSteady_quiet, completed_is_restorable_iff (sampleToolkit_lawful []) hrun⟩

end moaworks.backup_artifact
