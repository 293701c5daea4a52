import Academy.Binary64.Basic

/-!
# Reviews and payments

What students say about a course, by the stars they give, and how they
pay for it.
-/

namespace Academy.Catalog

/-- **What is said in a review** of so many stars; from one to five. -/
def comments (rating : UInt8) : List String :=
  match rating with
  | 5 => [
    "Absolutely fantastic course! Learned so much and the instructor was amazing.",
    "Best course I've ever taken. Highly recommend to everyone!",
    "Exceeded all my expectations. Worth every penny!",
    "The instructor explains complex topics in such a clear way. 10/10!",
    "This course changed my career. Thank you!"]
  | 4 => [
    "Great course overall. A few sections could be improved but very solid.",
    "Really enjoyed this course. Good balance of theory and practice.",
    "Excellent content, though I wish there were more hands-on projects.",
    "Very informative and well-structured. Would recommend!",
    "Good course with practical examples. Learned a lot."]
  | 3 => [
    "Decent course but nothing exceptional. Gets the job done.",
    "Some good content but felt a bit rushed in places.",
    "Average course. Expected more depth on certain topics.",
    "It's okay. Some parts were great, others not so much.",
    "Useful information but presentation could be better."]
  | 2 => [
    "Disappointed. The course didn't cover what was advertised.",
    "Too basic for the price. Expected more advanced content.",
    "Outdated information and poor audio quality.",
    "Not worth the money. Better free resources available.",
    "Struggled to stay engaged. Needs major improvements."]
  | 1 => [
    "Complete waste of time and money. Very disappointing.",
    "Terrible course. Instructor seems unprepared.",
    "Do not buy this course. Save your money.",
    "Extremely poor quality. Requesting a refund.",
    "Worst course I've ever purchased. Avoid at all costs."]
  | _ => []

/-- The ways of paying. -/
def paymentMethods : List String := ["credit_card", "paypal", "debit_card", "bank_transfer"]

/-- What part of the price is left by a discount. -/
def discountFactors : List Binary64 := [0.5, 0.7, 0.8]

/-- The currency of payments. -/
def currency : String := "USD"

end Academy.Catalog
