/-!
# People and places

The instructors that the platform presents, and the names and countries
that its students are put together from.
-/

namespace Academy

/-- **An instructor of the catalog.** -/
structure InstructorTemplate where
  /-- The full name, with academic titles. -/
  name : String
  /-- A line of biography. -/
  bio : String
  /-- The field of study, which is the name of a category. -/
  specialty : String
  /-- The country. -/
  country : String
deriving DecidableEq

namespace Catalog

/-- **The instructors**, in the order in which they are taken. -/
def instructors : List InstructorTemplate := [
  ⟨"Dr. Sarah Johnson",
    "Former Google engineer with 15 years of experience in software architecture",
    "Programming", "United States"⟩,
  ⟨"Prof. Michael Chen", "PhD in Machine Learning from MIT, published researcher in AI",
    "Data Science", "Canada"⟩,
  ⟨"Emily Rodriguez", "Award-winning UX designer, worked with Fortune 500 companies",
    "Design", "Spain"⟩,
  ⟨"David Kim", "Certified AWS Solutions Architect and DevOps consultant",
    "DevOps", "South Korea"⟩,
  ⟨"Dr. Amanda Williams", "Mathematics professor with a passion for making complex concepts simple",
    "Mathematics", "United Kingdom"⟩,
  ⟨"Carlos Martinez", "Serial entrepreneur and business strategist with 3 successful exits",
    "Business", "Mexico"⟩,
  ⟨"Sophie Laurent", "Polyglot speaker of 7 languages, certified language instructor",
    "Languages", "France"⟩,
  ⟨"James Anderson", "Life coach and productivity expert, bestselling author",
    "Personal Development", "Australia"⟩,
  ⟨"Dr. Priya Patel", "Data scientist at Microsoft, specializing in deep learning",
    "Data Science", "India"⟩,
  ⟨"Robert Taylor", "Full-stack developer and open-source contributor",
    "Programming", "United States"⟩,
  ⟨"Lisa Zhang", "Brand strategist and digital marketing expert",
    "Business", "Singapore"⟩,
  ⟨"Marco Rossi", "Creative director with expertise in motion graphics",
    "Design", "Italy"⟩,
  ⟨"Anna Kowalski", "Cloud infrastructure specialist, Kubernetes expert",
    "DevOps", "Poland"⟩,
  ⟨"Hassan Ahmed", "Applied mathematics researcher focusing on optimization",
    "Mathematics", "Egypt"⟩,
  ⟨"Nina Petrov", "Mindfulness coach and personal transformation specialist",
    "Personal Development", "Russia"⟩]

/-- First names of students. -/
def firstNames : List String := [
  "Emma", "Liam", "Olivia", "Noah", "Ava", "Ethan", "Sophia", "Mason", "Isabella", "William",
  "Mia", "James", "Charlotte", "Benjamin", "Amelia", "Lucas", "Harper", "Henry", "Evelyn",
  "Alexander"]

/-- Last names of students. -/
def lastNames : List String := [
  "Smith", "Johnson", "Williams", "Brown", "Jones", "Garcia", "Miller", "Davis", "Rodriguez",
  "Martinez", "Hernandez", "Lopez", "Gonzalez", "Wilson", "Anderson", "Thomas", "Taylor", "Moore",
  "Jackson", "Martin"]

/-- Countries of students. -/
def countries : List String := [
  "United States", "Canada", "United Kingdom", "Germany", "France", "Spain", "Italy", "Australia",
  "Japan", "South Korea", "India", "Brazil", "Mexico", "Netherlands", "Sweden"]

/-- Where instructors have their mail. -/
def instructorDomain : String := "eduplatform.com"

/-- Where students have their mail. -/
def studentDomain : String := "email.com"

/-- Titles that are left out of an instructor's address, in small letters. -/
def academicTitles : List String := ["dr.", "prof."]

end Catalog

end Academy
