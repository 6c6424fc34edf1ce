import EventReporter.Header
import EventReporter.Proofs.Text.Cut
import EventReporter.Proofs.Text.Utf8
namespace EventReporter.Header

/-!
# Headers are read as they were written

The 80 bytes of a header whose names fit their fields are always accepted, and give the header
back with each name up to its first zero character. New headers are of this kind whatever their
names, since these are cut; if the names are without the zero character, nothing is lost.

* `read_written` : what is read of a header, whatever its names.
* `read_fitting` : what is read of a header whose names fit.
* `read_bytes` : a storable header is read as it was written.
* `storable_new` : a new header is storable.
* `writeInto_new_reads_back` : a new header is written in full or not at all, and what is read
  of it.
-/

/-- The names of a header fit their fields, zero included, and go on to their end. -/
structure Storable (h : Header) : Prop where
  domain_fits : h.domain.utf8ByteSize ≤ Limits.domainBytes
  domain_noNul : Text.nul ∉ h.domain.toList
  name_fits : h.name.utf8ByteSize ≤ Limits.eventNameBytes
  name_noNul : Text.nul ∉ h.name.toList

/-- A header made by `new` is storable if its names are without `nul`: they are cut to their
    limits. -/
theorem storable_new {domain name : String} (hdomain : Text.nul ∉ domain.toList)
    (hname : Text.nul ∉ name.toList) (type : EventType) : Storable (new domain name type) where
  domain_fits := Text.utf8ByteSize_cut_le _ _
  domain_noNul := fun h => hdomain (Text.mem_of_mem_cut h)
  name_fits := Text.utf8ByteSize_cut_le _ _
  name_noNul := fun h => hname (Text.mem_of_mem_cut h)

/-- Only the names matter to whether a header is storable. -/
theorem Storable.of_names {h h' : Header} (hs : Storable h) (hdomain : h'.domain = h.domain)
    (hname : h'.name = h.name) : Storable h' where
  domain_fits := hdomain ▸ hs.domain_fits
  domain_noNul := hdomain ▸ hs.domain_noNul
  name_fits := hname ▸ hs.name_fits
  name_noNul := hname ▸ hs.name_noNul

/-! ### One field -/

/-- A name that leaves a byte of its field free is read up to its first `nul`
    (`Text.takeWhile_utf8`). -/
theorem readName_padName {size : Nat} {name : String} (hfits : name.utf8ByteSize < size)
    (what : String) : readName (padName size name) what = .ok (Text.upToNul name) := by
  have hlen : (Text.utf8 name).length ≤ size - 1 := by
    rw [Text.length_utf8]
    omega
  rw [readName, padName, List.take_of_length_le hlen, Text.takeWhile_utf8, Text.ofUtf8?_utf8]

/-! ### All fields -/

/-- The field of the domain is full. -/
theorem length_padName_domain (h : Header) :
    (padName domainField h.domain).length = domainField :=
  length_padName (by decide) _

/-- The field of the event name is as long as `nameField`, whatever the name. -/
theorem length_padName_name (h : Header) : (padName nameField h.name).length = nameField :=
  length_padName (by decide) _

/-- A header with other names, if both can be had. -/
def withNames (h : Header) (domain name : Except WireError String) : Except WireError Header := do
  let domain ← domain
  let name ← name
  pure { h with domain, name }

/-- A header that was written is read as it was, but for what its fields make of its names. Each
    number is found behind the one before it, by `LittleEndian.take_bytes_append`. -/
theorem read_written (h : Header) (rest : List UInt8) :
    read (h.bytes ++ rest) = h.withNames (readName (padName domainField h.domain) "domain")
      (readName (padName nameField h.name) "event name") := by
  have hsize : ¬ (h.bytes ++ rest).length < blockSize := by
    rw [List.length_append, length_bytes]
    omega
  have hflags : unpackFlags h.flags = (h.type, h.traced) := unpackFlags_packFlags _ _
  rw [read, if_neg hsize]
  simp only [bytes, List.append_assoc]
  -- the names stand in front, in fields of fixed size
  rw [List.take_left' (length_padName_domain h), List.drop_left' (length_padName_domain h),
    List.take_left' (length_padName_name h), List.drop_left' (length_padName_name h)]
  simp only [LittleEndian.take_bytes_append]
  simp [LittleEndian.count, hflags, withNames]

/-- If its names fit, they are read up to their first `nul`: `read_written` and
    `readName_padName`. -/
theorem read_fitting {h : Header} (hdomainFits : h.domain.utf8ByteSize ≤ Limits.domainBytes)
    (hnameFits : h.name.utf8ByteSize ≤ Limits.eventNameBytes) (rest : List UInt8) :
    read (h.bytes ++ rest)
      = .ok { h with domain := Text.upToNul h.domain, name := Text.upToNul h.name } := by
  have hdomain : readName (padName domainField h.domain) "domain"
      = .ok (Text.upToNul h.domain) := readName_padName (Nat.lt_succ_of_le hdomainFits) _
  have hname : readName (padName nameField h.name) "event name" = .ok (Text.upToNul h.name) :=
    readName_padName (Nat.lt_succ_of_le hnameFits) _
  rw [read_written, hdomain, hname]
  rfl

/-- A storable header is read as it was written. -/
theorem read_bytes {h : Header} (hs : Storable h) (rest : List UInt8) :
    read (h.bytes ++ rest) = .ok h := by
  rw [read_fitting hs.domain_fits hs.name_fits, Text.upToNul_of_noNul hs.domain_noNul,
    Text.upToNul_of_noNul hs.name_noNul]

/-! ### New headers -/

/-- What `writeInto` does: a header is one piece, and a buffer takes it in full or not at all. -/
theorem writeInto_eq (h : Header) (b : Buffer) :
    h.writeInto b =
      if blockSize ≤ b.remaining then ({ b with bytes := b.bytes ++ h.bytes }, .ok ())
      else (b, .error (.overflow blockSize b.remaining)) := by
  rw [writeInto, Buffer.appendAll, length_bytes, Buffer.appendAll]

/-- Whatever its names are, a new header that is filled in takes 80 bytes, which a buffer takes in
    full or not at all. Its names are the longest parts that fit, and reading gives them up to
    their first zero character, and everything else unchanged. -/
theorem writeInto_new_reads_back (domain name : String) (type : EventType)
    (timestamp : UInt64) (timeZone : UInt8) (uid pid tid : UInt32) (id : UInt64) (traced : Bool)
    (b : Buffer) (rest : List UInt8) :
    let h := { new domain name type with timestamp, timeZone, uid, pid, tid, id, traced }
    h.bytes.length = 80 ∧
      (if 80 ≤ b.remaining then
        ∃ b', h.writeInto b = (b', .ok ()) ∧ b'.limit = b.limit ∧ b'.toList = b.toList ++ h.bytes
      else h.writeInto b = (b, .error (.overflow 80 b.remaining))) ∧
      Text.Shortened 16 domain h.domain ∧ Text.Shortened 32 name h.name ∧
      read (h.bytes ++ rest) = .ok
        { domain := Text.upToNul h.domain, name := Text.upToNul h.name, timestamp, timeZone,
          uid, pid, tid, id, type, traced } := by
  intro h
  refine ⟨length_bytes h, ?_, Text.shortened_cut _ _, Text.shortened_cut _ _, ?_⟩
  · have hwrite := writeInto_eq h b
    split
    · next hroom => exact ⟨_, hwrite.trans (if_pos hroom), rfl, Array.toList_appendList⟩
    · next hroom => exact hwrite.trans (if_neg hroom)
  · exact read_fitting (Text.utf8ByteSize_cut_le _ _) (Text.utf8ByteSize_cut_le _ _) rest

/-- A domain whose limit falls inside of a character, and a name with a zero character. -/
example :
    let h := new "aéééééééé" "IN\x00OUT" .fault
    h.domain = "aééééééé" ∧
      (read h.bytes).toOption = some { h with name := "IN" } := by
  decide +kernel

end EventReporter.Header
