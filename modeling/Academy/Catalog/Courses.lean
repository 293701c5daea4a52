import Academy.Binary64.Basic

/-!
# The course catalog

The fields of study that the platform teaches and, for each of them, the
courses that it is known for. Courses are made from these entries first;
once they are used up, from advanced editions of them.
-/

namespace Academy

/-- **A course of the catalog.** -/
structure CourseTemplate where
  /-- The title. -/
  title : String
  /-- What the course is about. -/
  description : String
  /-- What it is found under. -/
  tags : List String
  /-- The price in dollars. -/
  price : Binary64
  /-- How many hours it takes. -/
  hours : Binary64
deriving DecidableEq

/-- **A field of study of the catalog**, with its courses. -/
structure CategoryTemplate where
  /-- The name. -/
  name : String
  /-- What it covers. -/
  description : String
  /-- Its courses. -/
  courses : List CourseTemplate
deriving DecidableEq

namespace Catalog

/-- Programming. -/
def programming : CategoryTemplate where
  name := "Programming"
  description := "Software development and coding"
  courses := [
    ⟨"Python for Beginners",
      "Learn Python programming from scratch with hands-on projects",
      ["Python", "Beginner", "Programming"], 29.99, 20.0⟩,
    ⟨"Advanced JavaScript",
      "Master modern JavaScript including ES6+, async/await, and frameworks",
      ["JavaScript", "Advanced", "Web"], 49.99, 35.0⟩,
    ⟨"Full-Stack Web Development",
      "Build complete web applications using React, Node.js, and MongoDB",
      ["Full-Stack", "React", "Node.js"], 99.99, 60.0⟩,
    ⟨"Java Masterclass",
      "Comprehensive Java programming from basics to advanced OOP concepts",
      ["Java", "OOP", "Enterprise"], 79.99, 45.0⟩,
    ⟨"C++ Game Development",
      "Create games using C++ and Unreal Engine",
      ["C++", "Game Dev", "Unreal"], 89.99, 50.0⟩]

/-- Data Science. -/
def dataScience : CategoryTemplate where
  name := "Data Science"
  description := "Analytics, ML, and AI"
  courses := [
    ⟨"Data Analysis with Python",
      "Analyze data using Pandas, NumPy, and visualization libraries",
      ["Python", "Pandas", "Analysis"], 59.99, 30.0⟩,
    ⟨"Machine Learning A-Z",
      "Complete machine learning course covering all major algorithms",
      ["ML", "Scikit-learn", "AI"], 99.99, 55.0⟩,
    ⟨"Deep Learning Specialization",
      "Neural networks, CNNs, RNNs, and transformers with TensorFlow",
      ["Deep Learning", "TensorFlow", "Neural Networks"], 149.99, 70.0⟩,
    ⟨"Data Visualization Mastery",
      "Create stunning visualizations with Tableau and D3.js",
      ["Tableau", "D3.js", "Visualization"], 49.99, 25.0⟩,
    ⟨"Big Data with Spark",
      "Process large datasets using Apache Spark and Hadoop",
      ["Spark", "Big Data", "Hadoop"], 79.99, 40.0⟩]

/-- Business. -/
def business : CategoryTemplate where
  name := "Business"
  description := "Management and entrepreneurship"
  courses := [
    ⟨"Digital Marketing Fundamentals",
      "Master SEO, social media, and content marketing strategies",
      ["Marketing", "SEO", "Social Media"], 39.99, 20.0⟩,
    ⟨"Project Management Professional",
      "PMP certification prep and agile methodologies",
      ["PMP", "Agile", "Scrum"], 69.99, 35.0⟩,
    ⟨"Financial Analysis & Modeling",
      "Excel-based financial modeling for business decisions",
      ["Finance", "Excel", "Modeling"], 79.99, 30.0⟩,
    ⟨"Entrepreneurship Bootcamp",
      "Start and scale your business from idea to execution",
      ["Startup", "Business", "Strategy"], 99.99, 40.0⟩,
    ⟨"Leadership & Management",
      "Develop essential leadership skills for modern managers",
      ["Leadership", "Management", "Skills"], 49.99, 25.0⟩]

/-- Design. -/
def design : CategoryTemplate where
  name := "Design"
  description := "UI/UX and graphic design"
  courses := [
    ⟨"UI/UX Design Complete Course",
      "Design beautiful and user-friendly interfaces",
      ["UI", "UX", "Figma"], 69.99, 35.0⟩,
    ⟨"Graphic Design Masterclass",
      "Adobe Creative Suite mastery: Photoshop, Illustrator, InDesign",
      ["Photoshop", "Illustrator", "Design"], 79.99, 40.0⟩,
    ⟨"Motion Graphics with After Effects",
      "Create stunning animations and motion graphics",
      ["After Effects", "Animation", "Motion"], 59.99, 30.0⟩,
    ⟨"Web Design Fundamentals",
      "HTML, CSS, and responsive design principles",
      ["HTML", "CSS", "Responsive"], 39.99, 20.0⟩,
    ⟨"3D Modeling with Blender",
      "Create 3D models and animations using Blender",
      ["Blender", "3D", "Modeling"], 69.99, 45.0⟩]

/-- DevOps. -/
def devOps : CategoryTemplate where
  name := "DevOps"
  description := "Infrastructure and deployment"
  courses := [
    ⟨"Docker & Kubernetes Mastery",
      "Containerization and orchestration for modern applications",
      ["Docker", "Kubernetes", "Containers"], 89.99, 35.0⟩,
    ⟨"AWS Solutions Architect",
      "Design and deploy scalable solutions on AWS",
      ["AWS", "Cloud", "Architecture"], 99.99, 45.0⟩,
    ⟨"CI/CD Pipeline Automation",
      "Automate your deployment with Jenkins, GitLab CI, and GitHub Actions",
      ["CI/CD", "Jenkins", "Automation"], 69.99, 30.0⟩,
    ⟨"Infrastructure as Code",
      "Terraform and Ansible for infrastructure automation",
      ["Terraform", "Ansible", "IaC"], 79.99, 35.0⟩,
    ⟨"Linux System Administration",
      "Master Linux for servers and DevOps workflows",
      ["Linux", "Admin", "Server"], 59.99, 30.0⟩]

/-- Mathematics. -/
def mathematics : CategoryTemplate where
  name := "Mathematics"
  description := "Pure and applied mathematics"
  courses := [
    ⟨"Calculus I: Limits and Derivatives",
      "Foundational calculus concepts with real-world applications",
      ["Calculus", "Math", "Derivatives"], 49.99, 30.0⟩,
    ⟨"Linear Algebra for Data Science",
      "Matrices, vectors, and eigenvalues for ML applications",
      ["Linear Algebra", "Math", "Data Science"], 59.99, 25.0⟩,
    ⟨"Statistics & Probability",
      "Statistical analysis and probability theory fundamentals",
      ["Statistics", "Probability", "Analysis"], 49.99, 28.0⟩,
    ⟨"Discrete Mathematics",
      "Logic, sets, graphs, and combinatorics",
      ["Discrete Math", "Logic", "Graphs"], 39.99, 25.0⟩,
    ⟨"Applied Mathematics",
      "Mathematical modeling for engineering and science",
      ["Applied Math", "Modeling", "Engineering"], 69.99, 35.0⟩]

/-- Languages. -/
def languages : CategoryTemplate where
  name := "Languages"
  description := "Foreign language learning"
  courses := [
    ⟨"Spanish for Beginners",
      "Learn conversational Spanish from zero to intermediate",
      ["Spanish", "Beginner", "Conversation"], 29.99, 25.0⟩,
    ⟨"Business English Mastery",
      "Professional English for international business",
      ["English", "Business", "Professional"], 39.99, 20.0⟩,
    ⟨"French Language Complete Course",
      "Comprehensive French from basics to advanced",
      ["French", "Complete", "Fluency"], 49.99, 40.0⟩,
    ⟨"Mandarin Chinese Fundamentals",
      "Learn Mandarin with focus on speaking and characters",
      ["Mandarin", "Chinese", "Speaking"], 59.99, 35.0⟩,
    ⟨"German for Travelers",
      "Essential German for travel and everyday situations",
      ["German", "Travel", "Conversation"], 29.99, 15.0⟩]

/-- Personal Development. -/
def personalDevelopment : CategoryTemplate where
  name := "Personal Development"
  description := "Self-improvement and productivity"
  courses := [
    ⟨"Time Management Mastery",
      "Boost productivity and achieve work-life balance",
      ["Productivity", "Time Management", "Efficiency"], 19.99, 10.0⟩,
    ⟨"Public Speaking Confidence",
      "Overcome fear and deliver powerful presentations",
      ["Public Speaking", "Communication", "Confidence"], 39.99, 15.0⟩,
    ⟨"Emotional Intelligence",
      "Develop EQ for better relationships and leadership",
      ["EQ", "Emotional Intelligence", "Leadership"], 29.99, 12.0⟩,
    ⟨"Mindfulness & Meditation",
      "Reduce stress and increase focus through mindfulness",
      ["Mindfulness", "Meditation", "Wellness"], 24.99, 10.0⟩,
    ⟨"Career Development Strategy",
      "Plan and accelerate your professional growth",
      ["Career", "Development", "Strategy"], 34.99, 15.0⟩]

/-- **The fields of study**, in the order in which they are taken. -/
def categories : List CategoryTemplate := [
  programming, dataScience, business, design, devOps, mathematics, languages, personalDevelopment]

/-- The courses of a field of study by its name; a name that the catalog
does not have has none. -/
def coursesOf (category : String) : List CourseTemplate :=
  match categories.find? (·.name = category) with
  | some c => c.courses
  | none => []

/-- What a course costs that is made up for a field of study without
courses in the catalog. -/
def fillerPrices : List Binary64 := [49.99, 69.99, 89.99]

end Catalog

end Academy
