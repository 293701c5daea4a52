import Academy.Json.Extended

/-!
# Instructors and students

The two kinds of people. An instructor's specialty is the name of a
category, and it decides which courses are theirs; a student is active or
not, which nothing else depends on.
-/

namespace Academy

variable (Ref Date : Type)

/-- **An instructor.** -/
structure Instructor where
  /-- What they are known by. -/
  id : Ref
  /-- Their name, with a title if they have one. -/
  name : String
  /-- Their address. -/
  email : String
  /-- What they do. -/
  bio : String
  /-- The name of the category they teach. -/
  specialty : String
  /-- Where they live. -/
  country : String
  /-- How they are rated. -/
  rating : Binary64
  /-- How many students they are said to have had. -/
  totalStudents : UInt32
deriving DecidableEq

/-- **Whether a student is active.** -/
inductive StudentStatus
  | active
  | inactive
deriving DecidableEq, Repr, Inhabited

/-- **A student.** -/
structure Student where
  /-- What they are known by. -/
  id : Ref
  /-- Their name. -/
  name : String
  /-- Their address. -/
  email : String
  /-- Where they live. -/
  country : String
  /-- When they joined. -/
  registeredAt : Date
  /-- Whether they are active. -/
  status : StudentStatus
  /-- Their age. -/
  age : UInt8
deriving DecidableEq

/-- The fields of an instructor. -/
def Instructor.fields : List Field :=
  [.required "_id" .identifier,
   .required "name" .string,
   .required "email" .string,
   .required "bio" .string,
   .required "specialty" .string,
   .required "country" .string,
   .required "rating" .binary64,
   .required "total_students" .uint32]

/-- **Instructors as records.** -/
def Instructor.codec : Codec (Instructor Identifier) :=
  (Codec.record "Instructor" Instructor.fields false).correspond
    (fun (id, name, email, bio, specialty, country, rating, totalStudents, ()) =>
      ⟨id, name, email, bio, specialty, country, rating, totalStudents⟩)
    (fun i => (i.id, i.name, i.email, i.bio, i.specialty, i.country, i.rating, i.totalStudents,
      ()))

namespace StudentStatus

/-- The word for a status. -/
def word : StudentStatus → String
  | active => "active"
  | inactive => "inactive"

/-- Statuses as words. -/
def codec : Codec StudentStatus :=
  .oneOf ([active, inactive].map fun s => (s.word, s)) word

/-- How common the statuses are. -/
def weights : List (StudentStatus × Binary64) :=
  [(active, 0.92), (inactive, 0.08)]

end StudentStatus

/-- The fields of a student. -/
def Student.fields : List Field :=
  [.required "_id" .identifier,
   .required "name" .string,
   .required "email" .string,
   .required "country" .string,
   .required "registered_at" .instant,
   .required "status" StudentStatus.codec,
   .required "age" .uint8]

/-- **Students as records.** -/
def Student.codec : Codec (Student Identifier Instant) :=
  (Codec.record "Student" Student.fields false).correspond
    (fun (id, name, email, country, registeredAt, status, age, ()) =>
      ⟨id, name, email, country, registeredAt, status, age⟩)
    (fun s => (s.id, s.name, s.email, s.country, s.registeredAt, s.status, s.age, ()))

end Academy
