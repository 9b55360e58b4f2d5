import Overlay.Proofs.DiskWalks
import Overlay.Proofs.StoreContract
import Overlay.Store.Directory

/-! A store in a directory keeps the contract of stores. What it holds is read off the directory
that its root leads to; putting and deleting change one file of that directory, and the root leads
to the same directory afterwards. -/
namespace Overlay

namespace Store

/-- Whatever is a key may be listed. -/
theorem isStem_of_isKey {key : String} (valid : isKey key = true) : isStem key = true := by
  simp only [isKey, Bool.and_eq_true, List.all_eq_true, bne_iff_ne, ne_eq] at valid
  obtain ⟨nonempty, letters⟩ := valid
  have lacks : ∀ c, isKeyChar c = false → c ∉ key.toList := by
    intro c other member
    rw [letters c member] at other
    cases other
  have dot : ∀ rest, key.toList ≠ '.' :: rest := by
    intro rest same
    exact lacks '.' (by decide) (by rw [same]; exact List.mem_cons_self)
  have here : key ≠ "." := by
    rintro rfl
    exact dot [] rfl
  have up : key ≠ ".." := by
    rintro rfl
    exact dot ['.'] rfl
  simp [isStem, nonempty, here, up, lacks '\x00' (by decide), lacks '/' (by decide)]

end Store

namespace DirectoryStore

/-- The name of the file of an entry. -/
def fileName (key : String) : String :=
  key ++ "." ++ Store.entryExtension

theorem fileName_inj {one other : String} (same : fileName one = fileName other) :
    one = other := by
  have letters := congrArg String.toList same
  simp only [fileName, String.toList_append, List.append_assoc] at letters
  exact String.toList_inj.mp (List.append_cancel_right letters)

theorem plain_fileName {key : String} (stem : Store.isStem key = true) :
    Path.Plain (fileName key) := by
  simp only [Store.isStem, Bool.and_eq_true, bne_iff_ne, ne_eq, Bool.not_eq_true',
    List.contains_eq_mem, decide_eq_false_iff_not] at stem
  obtain ⟨_, slashless⟩ := stem
  have long : 5 < (fileName key).length := by
    have dot : ".".length = 1 := by decide
    have ending : Store.entryExtension.length = 5 := by decide
    unfold fileName
    rw [String.length_append, String.length_append]
    omega
  refine ⟨?_, ?_, ?_, ?_⟩
  · intro same
    rw [same] at long
    exact absurd long (by decide)
  · intro same
    rw [same] at long
    exact absurd long (by decide)
  · intro same
    rw [same] at long
    exact absurd long (by decide)
  · intro c member
    simp only [fileName, String.toList_append, List.mem_append] at member
    rcases member with (before | dot) | ending
    · have other : c ≠ '/' := by
        rintro rfl
        exact slashless before
      simpa [Path.isSlash] using other
    · have letters : ".".toList.all (!Path.isSlash ·) = true := by decide
      simpa using List.all_eq_true.mp letters c dot
    · have letters : Store.entryExtension.toList.all (!Path.isSlash ·) = true := by decide
      simpa using List.all_eq_true.mp letters c ending

/-- Where the path of the directory begins, last name first. -/
def start (store : DirectoryStore) : List String :=
  (if Path.isAbsolute store.root then [] else store.disk.workingDirectory).reverse

/-- The directory that the root leads to, last name first. -/
def place? (store : DirectoryStore) : Option (List String) :=
  store.disk.leads store.start (Path.piecesBefore store.root)

/-- What lies in the file of a key. -/
def content? (store : DirectoryStore) (key : String) : Option Bytes :=
  match store.place? with
  | none => none
  | some place =>
    match (store.disk.entriesAt place.reverse).get? (fileName key) with
    | some (.file content _) => some content
    | _ => none

/-- The path of an entry goes through the pieces of the root, and then the name of the file. -/
theorem follow_path (store : DirectoryStore) {key : String} (stem : Store.isStem key = true) :
    store.disk.follow (store.path key) =
      store.disk.walk store.start (store.disk.standing store.start.reverse)
        (Path.piecesBefore store.root ++ [fileName key]) := by
  have plain := plain_fileName stem
  have named : store.path key = Path.append store.root (fileName key) := rfl
  unfold Disk.follow start
  rw [named, Path.isAbsolute_append _ plain, Path.pieces_append _ plain, List.reverse_reverse]

theorem path_ne_empty (store : DirectoryStore) {key : String} (stem : Store.isStem key = true) :
    store.path key ≠ "" := by
  intro empty
  have pieces := Path.pieces_append store.root (plain_fileName stem)
  change Path.pieces (store.path key) = _ at pieces
  rw [empty] at pieces
  have last := congrArg List.getLast? pieces
  rw [List.getLast?_concat] at last
  injection last with last
  exact (plain_fileName stem).nonempty last.symm

/-- Where the path of an entry leads. -/
theorem locate_enters (store : DirectoryStore) {key : String} (stem : Store.isStem key = true) :
    Disk.Enters store.disk store.start (Path.piecesBefore store.root) (fileName key)
      (store.disk.locate (store.path key)) := by
  have walks := Disk.walk_enters store.disk store.start (Path.piecesBefore store.root)
    (plain_fileName stem)
  rw [← follow_path store stem] at walks
  unfold Disk.locate Disk.permit
  split
  · exact .refused nofun
  · rw [if_neg (by simpa using store.path_ne_empty stem)]
    split
    · exact .refused nofun
    · exact walks

/-- Where the path of an entry leads to nothing, nothing lies. -/
theorem content?_of_nowhere {store : DirectoryStore} {key : String}
    (nowhere : ∀ place, store.place? = some place →
      (store.disk.entriesAt place.reverse).get? (fileName key) = none) :
    store.content? key = none := by
  unfold content?
  cases led : store.place? with
  | none => rfl
  | some place =>
    dsimp only
    rw [nowhere place led]

theorem content?_at {store : DirectoryStore} {place : List String} (led : store.place? = some place)
    (key : String) :
    store.content? key =
      match (store.disk.entriesAt place.reverse).get? (fileName key) with
      | some (.file content _) => some content
      | _ => none := by
  unfold content?
  rw [led]

theorem content?_of_file {store : DirectoryStore} {key : String} {place : List String}
    {content : Bytes} {changed : Millis} (led : store.place? = some place)
    (held : (store.disk.entriesAt place.reverse).get? (fileName key) =
      some (.file content changed)) : store.content? key = some content := by
  rw [content?_at led, held]

/-- What is read under a key lies there, and where nothing is found nothing lies. -/
theorem content?_of_get {store : DirectoryStore} {key : String} {found : Option Bytes}
    (got : store.get key = .ok found) : Store.isKey key = true ∧ store.content? key = found := by
  unfold get entryPath at got
  split at got
  · rename_i valid
    refine ⟨valid, ?_⟩
    have enters := store.locate_enters (Store.isStem_of_isKey valid)
    simp only [bind, Except.bind, Disk.read, Disk.stat] at got
    generalize store.disk.locate (store.path key) = outcome at enters got
    cases enters with
    | @found place node led held =>
      cases node with
      | file content changed =>
        cases got
        exact content?_of_file led held
      | directory changed entries => cases got
    | missing led absent there =>
      cases got
      refine content?_of_nowhere ?_
      intro place ledToo
      rw [place?, led] at ledToo
      cases ledToo
      exact absent
    | lost nowhere =>
      cases got
      exact content?_of_nowhere nowhere
    | @refused fault other =>
      cases fault with
      | notFound => exact absurd rfl other
      | _ => cases got
  · cases got

/-- The root leads to a directory in which the file of the key is there or can be created. -/
structure Open (store : DirectoryStore) (key : String) (place : List String) : Prop where
  led : store.place? = some place
  there : ∃ changed entries, store.disk.node? place.reverse = some (.directory changed entries)
  free {time : Millis} {inner : Directory} :
    (store.disk.entriesAt place.reverse).get? (fileName key) ≠ some (.directory time inner)

theorem Open.of_file {store : DirectoryStore} {key : String} {place : List String}
    {content : Bytes} {changed : Millis} (led : store.place? = some place)
    (held : (store.disk.entriesAt place.reverse).get? (fileName key) =
      some (.file content changed)) : store.Open key place := by
  refine ⟨led, Disk.there_of_entry held, ?_⟩
  intro time inner same
  rw [held] at same
  cases same

theorem Open.of_missing {store : DirectoryStore} {key : String} {place : List String}
    {changed : Millis} {entries : Directory} (led : store.place? = some place)
    (absent : (store.disk.entriesAt place.reverse).get? (fileName key) = none)
    (there : store.disk.node? place.reverse = some (.directory changed entries)) :
    store.Open key place := by
  refine ⟨led, ⟨changed, entries, there⟩, ?_⟩
  intro time inner same
  rw [absent] at same
  cases same

/-- The store after a change of the directory that its root leads to. -/
def changing (store : DirectoryStore) (what : Directory → Directory) (place : List String) :
    DirectoryStore :=
  { store with disk := store.disk.changing what place.reverse }

/-- The root leads to the changed directory. -/
theorem Open.changing {store : DirectoryStore} {what : Directory → Directory} {key : String}
    {place : List String} (opens : store.Open key place)
    (others : ∀ name entries, name ≠ fileName key →
      (what entries).get? name = Table.get? entries name) :
    (store.changing what place).place? = some place ∧
      (store.changing what place).disk.entriesAt place.reverse =
        what (store.disk.entriesAt place.reverse) := by
  obtain ⟨changed, entries, there⟩ := opens.there
  have keeps : Directory.KeepsDirectories what (store.disk.entriesAt place.reverse) := by
    intro name time inner held
    rw [others, held]
    rintro rfl
    exact opens.free held
  exact ⟨Disk.leads_changing keeps opens.led, Disk.entriesAt_changing there⟩

/-- What lies under a key is looked up in the changed directory. -/
theorem content?_changing {store : DirectoryStore} {what : Directory → Directory} {key : String}
    {place : List String} (opens : store.Open key place)
    (others : ∀ name entries, name ≠ fileName key →
      (what entries).get? name = Table.get? entries name) (probe : String) :
    (store.changing what place).content? probe =
      match (what (store.disk.entriesAt place.reverse)).get? (fileName probe) with
      | some (.file content _) => some content
      | _ => none := by
  obtain ⟨still, after⟩ := opens.changing others
  rw [content?_at still, after]

/-- Putting an entry writes its file. -/
theorem put_ok {store after : DirectoryStore} {key : String} {content : Bytes}
    (put : store.put key content = .ok after) :
    Store.isKey key = true ∧ ∃ place, store.Open key place ∧
      after = store.changing
        (·.insert (fileName key) (.file content (Disk.stamp store.disk.present))) place := by
  unfold DirectoryStore.put entryPath at put
  split at put
  · rename_i valid
    refine ⟨valid, ?_⟩
    have enters := store.locate_enters (Store.isStem_of_isKey valid)
    simp only [bind, Except.bind, Disk.write, Disk.writeAt] at put
    generalize store.disk.locate (store.path key) = outcome at enters put
    cases enters with
    | @found place node led held =>
      cases node with
      | file before time =>
        cases put
        refine ⟨place, .of_file led held, ?_⟩
        rw [Disk.put_eq_changing]
        rfl
      | directory time inner => cases put
    | @missing place changed entries led absent there =>
      cases put
      refine ⟨place, .of_missing led absent there, ?_⟩
      rw [Disk.put_eq_changing]
      rfl
    | lost nowhere => cases put
    | refused other => cases put
  · cases put

/-- A deletion either finds no node, and then nothing lies there, or takes away the file that the
path of the entry leads to. -/
theorem delete_cases {store after : DirectoryStore} {key : String}
    (deleted : store.delete key = .ok after) :
    Store.isStem key = true ∧
      (after = store ∧
          (∀ place, store.place? = some place →
            (store.disk.entriesAt place.reverse).get? (fileName key) = none) ∧
          (∀ node, store.disk.stat (store.path key) ≠ .ok node) ∨
        ∃ place content changed, store.place? = some place ∧
          (store.disk.entriesAt place.reverse).get? (fileName key) = some (.file content changed) ∧
          store.disk.locate (store.path key) =
            .ok (.found (place.reverse ++ [fileName key]) (.file content changed)) ∧
          after = store.changing (·.erase (fileName key)) place) := by
  unfold delete listedPath at deleted
  split at deleted
  · rename_i stem
    refine ⟨stem, ?_⟩
    have enters := store.locate_enters stem
    simp only [bind, Except.bind, Disk.removeFile] at deleted
    simp only [Disk.stat, bind, Except.bind]
    generalize store.disk.locate (store.path key) = outcome at enters deleted ⊢
    cases enters with
    | @found place node led held =>
      cases node with
      | file content changed =>
        cases deleted
        refine .inr ⟨place, content, changed, led, held, rfl, ?_⟩
        rw [Disk.remove_eq_changing]
        rfl
      | directory time inner => cases deleted
    | missing led absent there =>
      cases deleted
      refine .inl ⟨rfl, ?_, fun node found => ?_⟩
      · intro place ledToo
        rw [place?, led] at ledToo
        cases ledToo
        exact absent
      · cases found
    | lost nowhere =>
      cases deleted
      refine .inl ⟨rfl, nowhere, fun node found => ?_⟩
      cases found
    | @refused fault other =>
      cases fault with
      | notFound => exact absurd rfl other
      | _ => cases deleted
  · cases deleted

/-- Deleting an entry takes its file away, or finds that nothing lies there. -/
theorem delete_ok {store after : DirectoryStore} {key : String}
    (deleted : store.delete key = .ok after) :
    store.content? key = none ∧ after = store ∨
    ∃ place, store.Open key place ∧ after = store.changing (·.erase (fileName key)) place := by
  obtain ⟨-, ⟨same, nothing, -⟩ | ⟨place, content, changed, led, held, -, same⟩⟩ :=
    delete_cases deleted
  · exact .inl ⟨content?_of_nowhere nothing, same⟩
  · exact .inr ⟨place, .of_file led held, same⟩

private theorem fileName_ne {one other : String} (apart : one ≠ other) :
    fileName one ≠ fileName other :=
  fun same => apart (fileName_inj same)

theorem content?_put {store after : DirectoryStore} {key : String} {content : Bytes}
    (put : store.put key content = .ok after) (probe : String) :
    after.content? probe = if probe = key then some content else store.content? probe := by
  obtain ⟨valid, place, opens, rfl⟩ := put_ok put
  rw [content?_changing opens fun name entries apart => Table.get?_insert_of_ne entries _ apart]
  by_cases same : probe = key
  · rw [same, if_pos rfl, Table.get?_insert_self]
  · rw [if_neg same, Table.get?_insert_of_ne _ _ (fileName_ne same), content?_at opens.led]

theorem content?_delete {store after : DirectoryStore} {key : String}
    (deleted : store.delete key = .ok after) (probe : String) :
    after.content? probe = if probe = key then none else store.content? probe := by
  rcases delete_ok deleted with ⟨nothing, rfl⟩ | ⟨place, opens, rfl⟩
  · split
    · rename_i same
      rw [same, nothing]
    · rfl
  · rw [content?_changing opens fun name entries apart => Table.get?_erase_of_ne entries apart]
    by_cases same : probe = key
    · rw [same, if_pos rfl, Table.get?_erase_self]
    · rw [if_neg same, Table.get?_erase_of_ne _ (fileName_ne same), content?_at opens.led]

/-- A directory store reads and changes the files of its keys, one at a time. -/
instance : LawfulStore DirectoryStore where
  held store key := if Store.isKey key then store.content? key else none
  get_held got := by
    obtain ⟨valid, found⟩ := content?_of_get got
    rw [if_pos valid, found]
  put_held {store after now key content} put probe := by
    have valid := (put_ok put).1
    rw [content?_put put]
    by_cases same : probe = key
    · rw [same, if_pos valid, if_pos rfl, if_pos rfl]
    · rw [if_neg same, if_neg same]
  delete_held {store after key} deleted probe := by
    rw [content?_delete deleted]
    by_cases same : probe = key
    · rw [if_pos same, if_pos same, ite_self]
    · rw [if_neg same, if_neg same]

end DirectoryStore
end Overlay
